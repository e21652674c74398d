import IpRegistry.Address
import IpRegistry.Address.Parser
import IpRegistry.Address.Printer
import IpRegistry.AddressTally
import IpRegistry.Asn.Answer
import IpRegistry.Asn.Lookup
import IpRegistry.Asn.Number
import IpRegistry.Asn.Question
import IpRegistry.Asn.Record
import IpRegistry.Bulk
import IpRegistry.Bulk.Classification
import IpRegistry.Bulk.Schedule
import IpRegistry.Bulk.Stats
import IpRegistry.Bulk.Window
import IpRegistry.Calendar
import IpRegistry.Calendar.Format
import IpRegistry.Cidr
import IpRegistry.Cidr.Collapse
import IpRegistry.Cidr.Error
import IpRegistry.Cidr.Format
import IpRegistry.Cidr.Range
import IpRegistry.Cidr.Word
import IpRegistry.Config
import IpRegistry.Exchange
import IpRegistry.Field
import IpRegistry.Field.Shape
import IpRegistry.Host
import IpRegistry.Inquiry
import IpRegistry.Json
import IpRegistry.Json.Binary64
import IpRegistry.Json.Parser
import IpRegistry.Json.Printer
import IpRegistry.Json.Record
import IpRegistry.Json.Scalar
import IpRegistry.Keyed
import IpRegistry.Lookup
import IpRegistry.LookupError
import IpRegistry.National
import IpRegistry.National.Lookup
import IpRegistry.National.Tables
import IpRegistry.Origin
import IpRegistry.Origin.Lookup
import IpRegistry.Pattern
import IpRegistry.Pattern.Search
import IpRegistry.Proofs.Address.Accepts
import IpRegistry.Proofs.Address.Forms
import IpRegistry.Proofs.Address.RoundTrip
import IpRegistry.Proofs.Address.Shape
import IpRegistry.Proofs.AddressTally.Counts
import IpRegistry.Proofs.AddressTally.Matches
import IpRegistry.Proofs.AddressTally.Mentions
import IpRegistry.Proofs.AddressTally.Tokens
import IpRegistry.Proofs.Asn.Availability
import IpRegistry.Proofs.Asn.Columns
import IpRegistry.Proofs.Asn.Lookup
import IpRegistry.Proofs.Asn.Methods
import IpRegistry.Proofs.Asn.Ranking
import IpRegistry.Proofs.Bulk.Account
import IpRegistry.Proofs.Bulk.Admission
import IpRegistry.Proofs.Bulk.Conservation
import IpRegistry.Proofs.Bulk.Course
import IpRegistry.Proofs.Bulk.Fate
import IpRegistry.Proofs.Bulk.Isolation
import IpRegistry.Proofs.Bulk.Pace
import IpRegistry.Proofs.Bulk.Progress
import IpRegistry.Proofs.Bulk.Requests
import IpRegistry.Proofs.Bulk.Schedule
import IpRegistry.Proofs.Bulk.Tally
import IpRegistry.Proofs.Bulk.Termination
import IpRegistry.Proofs.Bulk.Timeline
import IpRegistry.Proofs.Bulk.Windows
import IpRegistry.Proofs.Calendar.DayNumber
import IpRegistry.Proofs.Calendar.Format
import IpRegistry.Proofs.Calendar.Policy
import IpRegistry.Proofs.Calendar.Shift
import IpRegistry.Proofs.Calendar.Text
import IpRegistry.Proofs.Cidr.Canonical
import IpRegistry.Proofs.Cidr.Collapse
import IpRegistry.Proofs.Cidr.Cover
import IpRegistry.Proofs.Cidr.Extent
import IpRegistry.Proofs.Cidr.Interval
import IpRegistry.Proofs.Cidr.Range
import IpRegistry.Proofs.Cidr.RoundTrip
import IpRegistry.Proofs.Cidr.Spans
import IpRegistry.Proofs.Cidr.Word
import IpRegistry.Proofs.Cidr.WordSpans
import IpRegistry.Proofs.Config
import IpRegistry.Proofs.Exchange
import IpRegistry.Proofs.Exchange.Steady
import IpRegistry.Proofs.Field
import IpRegistry.Proofs.Field.Adjacent
import IpRegistry.Proofs.Field.Lines
import IpRegistry.Proofs.Field.Scan
import IpRegistry.Proofs.Field.Sections
import IpRegistry.Proofs.Field.Values
import IpRegistry.Proofs.Field.Window
import IpRegistry.Proofs.Json.Members
import IpRegistry.Proofs.Json.Reader
import IpRegistry.Proofs.Json.Records
import IpRegistry.Proofs.Json.Reports
import IpRegistry.Proofs.Json.RoundTrip
import IpRegistry.Proofs.Keyed
import IpRegistry.Proofs.Keyed.Collect
import IpRegistry.Proofs.Keyed.Order
import IpRegistry.Proofs.National.Contacts
import IpRegistry.Proofs.National.Dates
import IpRegistry.Proofs.Networks
import IpRegistry.Proofs.Pattern.Greedy
import IpRegistry.Proofs.Pattern.Leftmost
import IpRegistry.Proofs.Pattern.Matches
import IpRegistry.Proofs.Pattern.Outcomes
import IpRegistry.Proofs.Pattern.Pieces
import IpRegistry.Proofs.Pattern.Reads
import IpRegistry.Proofs.Pattern.Search
import IpRegistry.Proofs.Pattern.Takes
import IpRegistry.Proofs.Rdap.Contact
import IpRegistry.Proofs.Rdap.Lookup
import IpRegistry.Proofs.Rdap.Ranges
import IpRegistry.Proofs.Rdap.Reach
import IpRegistry.Proofs.Rdap.Requests
import IpRegistry.Proofs.Rdap.Roles
import IpRegistry.Proofs.Rdap.Walk
import IpRegistry.Proofs.Retry
import IpRegistry.Proofs.Services
import IpRegistry.Proofs.Target.Names
import IpRegistry.Proofs.Target.Reserved
import IpRegistry.Proofs.Text.Numeral
import IpRegistry.Proofs.Text.Offset
import IpRegistry.Proofs.Text.Split
import IpRegistry.Proofs.Traverse
import IpRegistry.Proofs.Web.Retries
import IpRegistry.Proofs.Whois.Abbreviations
import IpRegistry.Proofs.Whois.ArinPairs
import IpRegistry.Proofs.Whois.Cover
import IpRegistry.Proofs.Whois.HeaderLines
import IpRegistry.Proofs.Whois.Lookup
import IpRegistry.Proofs.Whois.Query
import IpRegistry.Proofs.Whois.RangeHeaders
import IpRegistry.Proofs.Whois.Referral
import IpRegistry.Proofs.Whois.Retries
import IpRegistry.Rdap.Contact
import IpRegistry.Rdap.Lookup
import IpRegistry.Rdap.Object
import IpRegistry.Rdap.Record
import IpRegistry.Rdap.Service
import IpRegistry.Rdap.Walk
import IpRegistry.Registry
import IpRegistry.Report
import IpRegistry.Services
import IpRegistry.Target
import IpRegistry.Target.Reserved
import IpRegistry.Text.Blank
import IpRegistry.Text.Offset
import IpRegistry.Text.Quoted
import IpRegistry.Text.Split
import IpRegistry.Text.Unsigned
import IpRegistry.Text.Uppercase
import IpRegistry.Text.Utf8
import IpRegistry.Text.WordClass
import IpRegistry.Web
import IpRegistry.Web.Fetch
import IpRegistry.Whois
import IpRegistry.Whois.Header
import IpRegistry.Whois.Lookup
import IpRegistry.Whois.Query
import IpRegistry.Whois.Tables
