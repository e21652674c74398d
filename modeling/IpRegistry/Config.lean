import IpRegistry.Text.Blank
import IpRegistry.Text.Quoted
import IpRegistry.Text.Split
import IpRegistry.Text.Unsigned

/-!
Settings of lookups: how long to wait, how often to try, and the proxy. Durations are in
milliseconds.
-/

namespace IpRegistry

/-- Settings that every exchange shares. -/
structure Config where
  timeout : Nat := 5000
  retryCount : Nat := 3
  rateLimitTimeout : Nat := 120000
  proxy : Option String := none
  userAgent : String := "ipwhois-rs/0.1.0"
  deriving DecidableEq, Repr

/-- The settings that variables give. -/
inductive Config.Setting where
  | timeout
  | retryCount
  | rateLimitTimeout
  | proxy
  deriving DecidableEq, Repr

def Config.Setting.name : Setting → String
  | timeout => "IPWHOIS_TIMEOUT"
  | retryCount => "IPWHOIS_RETRY_COUNT"
  | rateLimitTimeout => "IPWHOIS_RATE_LIMIT_TIMEOUT"
  | proxy => "IPWHOIS_PROXY"

/-- Why a value is refused: it is not a number that fits the setting, or the number is of no use. -/
inductive Config.Reason where
  | number (e : Text.NumberError)
  | notPositive
  deriving DecidableEq, Repr

def Config.Reason.message : Reason → String
  | number e => e.message
  | notPositive => "timeout must be positive"

/-- Why settings are refused; the proxy is already masked. -/
inductive ConfigError where
  | invalidValue (setting : Config.Setting) (value : String) (reason : Config.Reason)
  | invalidProxy (masked : String)
  deriving DecidableEq, Repr

def ConfigError.message : ConfigError → String
  | invalidValue setting value reason =>
    "Invalid value for " ++ setting.name ++ ": " ++ Text.quoted value ++ " (" ++ reason.message ++ ")"
  | invalidProxy masked => "Invalid proxy URL: " ++ masked

namespace Config

/-- The scheme of a URL and what follows it; without a scheme the first part is empty. -/
def splitScheme (url : String) : List Char × List Char :=
  (Text.splitFirst? "://".toList url.toList).getD ([], url.toList)

/-- The URL with everything up to the last `@` of what follows the scheme hidden. -/
def maskUrl (url : String) : String :=
  let (scheme, rest) := splitScheme url
  let host := match Text.splitLastAt? '@' rest with
    | some (_, host) => "****@".toList ++ host
    | none => rest
  String.ofList (if scheme = [] then host else scheme ++ "://".toList ++ host)

def maskedProxy (c : Config) : Option String :=
  c.proxy.map maskUrl

def attempts (c : Config) : Nat :=
  max c.retryCount 1

def proxySchemes : List String := ["http", "https", "socks5"]

/-- The URL has a scheme that a proxy may have. -/
def hasProxyScheme (url : String) : Bool :=
  match Text.splitFirst? "://".toList url.toList with
  | some (scheme, _) => proxySchemes.contains (String.ofList scheme)
  | none => false

def validate (c : Config) : Except ConfigError Unit :=
  if c.timeout = 0 then .error (.invalidValue .timeout "0" .notPositive)
  else
    match c.proxy with
    | some url => if hasProxyScheme url then .ok () else .error (.invalidProxy (maskUrl url))
    | none => .ok ()

/-- The number of 64 bits that the value of a variable writes. -/
def readNumber (setting : Setting) (value : String) : Except ConfigError Nat :=
  match Text.unsigned (2 ^ 64) (Text.trim value).toList with
  | .ok n => .ok n
  | .error e => .error (.invalidValue setting value (.number e))

/-- The value of a variable through a reader, or what stands already if it is not set. -/
def orElse {α : Type} (current : α) (value : Option String) (read : String → Except ConfigError α) :
    Except ConfigError α :=
  match value with
  | none => .ok current
  | some s => read s

/-- The default settings with those replaced that variables set; their values are in seconds. -/
def fromVariables (lookup : Setting → Option String) : Except ConfigError Config := do
  let c : Config := {}
  let timeout ← orElse c.timeout (lookup .timeout) fun s => do
    return (← readNumber .timeout s) * 1000
  let retryCount ← orElse c.retryCount (lookup .retryCount) fun s => do
    let n ← readNumber .retryCount s
    if n < 2 ^ 32 then return n else throw (.invalidValue .retryCount s (.number .tooLarge))
  let rateLimitTimeout ← orElse c.rateLimitTimeout (lookup .rateLimitTimeout) fun s => do
    return (← readNumber .rateLimitTimeout s) * 1000
  let proxy := match lookup .proxy with
    | some s => if Text.trim s = "" then c.proxy else some (Text.trim s)
    | none => c.proxy
  let c := { c with timeout, retryCount, rateLimitTimeout, proxy }
  validate c
  return c

end Config

end IpRegistry
