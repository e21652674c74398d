import IpRegistry.Config
import IpRegistry.Proofs.Text.Split

namespace IpRegistry

namespace Config

/-- A proxy with a user in front of its host. -/
structure Login where
  scheme : Option String
  user : String
  host : String
  scheme_plain : ∀ s ∈ scheme, s ≠ "" ∧ ':' ∉ s.toList
  user_plain : ':' ∉ user.toList
  host_plain : '/' ∉ host.toList ∧ '@' ∉ host.toList

namespace Login

variable (l : Login) (password : String)

def start : String :=
  match l.scheme with
  | some s => s ++ "://"
  | none => ""

def url : String :=
  l.start ++ l.user ++ ":" ++ password ++ "@" ++ l.host

def masked : String :=
  l.start ++ "****@" ++ l.host

/-- The password does not matter for where the URL falls apart: there is a scheme in front of it, or
nothing that looks like the end of one. -/
def Hides : Prop :=
  l.scheme = none → ¬"://".toList <:+: ':' :: password.toList

/-- What stands before and behind the first end of a scheme in front of the host. -/
def split : Option (List Char × List Char) :=
  match l.scheme with
  | some s => some (s.toList, l.user.toList ++ ':' :: password.toList)
  | none => (Text.splitFirst? "://".toList (':' :: password.toList)).map fun parts =>
    (l.user.toList ++ parts.1, parts.2)

/-- The masked URL if this is taken for its scheme. -/
def shown (scheme : List Char) : String :=
  (if scheme = [] then "" else String.ofList scheme ++ "://") ++ "****@" ++ l.host

variable {l password}

theorem splitFirst?_url :
    Text.splitFirst? "://".toList (l.url password).toList =
      (l.split password).map fun parts => (parts.1, parts.2 ++ '@' :: l.host.toList) := by
  cases hscheme : l.scheme with
  | some s =>
      have htext : (l.url password).toList = s.toList ++ ':' :: ("//".toList ++
          (l.user.toList ++ ':' :: password.toList ++ '@' :: l.host.toList)) := by
        simp [url, start, hscheme]
      rw [htext, split, hscheme]
      exact Text.splitFirst?_append (l.scheme_plain s hscheme).2
  | none =>
      have htext : (l.url password).toList =
          l.user.toList ++ (':' :: password.toList ++ '@' :: l.host.toList) := by
        simp [url, start, hscheme]
      have hhost : Text.splitFirst? "://".toList l.host.toList = none := by
        rw [← Option.not_isSome_iff_eq_none, Text.isSome_splitFirst?_iff]
        exact fun hpart => l.host_plain.1 (hpart.subset (by decide))
      have hright : Text.splitFirst? "://".toList (':' :: password.toList ++ '@' :: l.host.toList) =
          (Text.splitFirst? "://".toList (':' :: password.toList)).map fun parts =>
            (parts.1, parts.2 ++ '@' :: l.host.toList) :=
        Text.splitFirst?_append_mark (by decide) hhost
      calc
        _ = (Text.splitFirst? "://".toList (':' :: password.toList ++ '@' :: l.host.toList)).map
              fun parts => (l.user.toList ++ parts.1, parts.2) := by
            rw [htext]
            exact Text.splitFirst?_append_left l.user_plain
        _ = _ := by
            rw [hright, split, hscheme, Option.map_map, Option.map_map]
            rfl

theorem maskUrl_url :
    maskUrl (l.url password) = l.shown (((l.split password).map Prod.fst).getD []) := by
  have hhost (front : List Char) :
      Text.splitLastAt? '@' (front ++ '@' :: l.host.toList) = some (front, l.host.toList) :=
    Text.splitLastAt?_append l.host_plain.2
  rw [maskUrl, splitScheme, splitFirst?_url, shown]
  cases l.split password with
  | none =>
      have htext : (l.url password).toList =
          (l.start.toList ++ l.user.toList ++ ':' :: password.toList) ++ '@' :: l.host.toList := by
        simp [url]
      rw [htext, Option.map_none, Option.getD_none]
      simp only [hhost]
      simp [String.ext_iff]
  | some parts =>
      by_cases hscheme : parts.1 = [] <;> simp [hhost, hscheme, String.ext_iff]

theorem hasProxyScheme_url :
    hasProxyScheme (l.url password) =
      ((l.split password).map Prod.fst).any fun scheme =>
        proxySchemes.contains (String.ofList scheme) := by
  rw [hasProxyScheme, splitFirst?_url]
  cases l.split password <;> rfl

theorem split_of_hides (h : l.Hides password) :
    (l.split password).map Prod.fst = l.scheme.map String.toList := by
  rw [split]
  cases hscheme : l.scheme with
  | some s => rfl
  | none =>
      have hnone : Text.splitFirst? "://".toList (':' :: password.toList) = none := by
        rw [← Option.not_isSome_iff_eq_none, Text.isSome_splitFirst?_iff]
        exact h hscheme
      simp only [hnone, Option.map_none]

theorem shown_scheme : l.shown ((l.scheme.map String.toList).getD []) = l.masked := by
  rw [shown, masked, start]
  cases hscheme : l.scheme with
  | some s => simp [(l.scheme_plain s hscheme).1]
  | none => simp

end Login

/-- The verdict on settings with a proxy that is accepted or not, and is shown to others as a text. -/
def verdict (c : Config) (accepted : Bool) (shown : String) : Except ConfigError Unit :=
  if c.timeout = 0 then .error (.invalidValue .timeout "0" .notPositive)
  else if accepted then .ok ()
  else .error (.invalidProxy shown)

theorem validate_proxy (c : Config) (url : String) :
    { c with proxy := some url }.validate = c.verdict (hasProxyScheme url) (maskUrl url) :=
  rfl

/-- What is shown of a proxy with a password, and the verdict on it, do not depend on the password
if there is a scheme, or if no end of a scheme can be read from the password on. Otherwise the user
and the password are shown up to the first end of a scheme. -/
theorem maskedProxy_login (c : Config) (l : Login) :
    (∀ password, l.Hides password →
      { c with proxy := some (l.url password) }.maskedProxy = some l.masked ∧
      { c with proxy := some (l.url password) }.validate =
        c.verdict (l.scheme.any proxySchemes.contains) l.masked) ∧
    ∀ password before after, l.scheme = none →
      Text.splitFirst? "://".toList (':' :: password.toList) = some (before, after) →
        { c with proxy := some (l.url password) }.maskedProxy =
          some (l.shown (l.user.toList ++ before)) ∧
        { c with proxy := some (l.url password) }.validate =
          c.verdict (proxySchemes.contains (l.user ++ String.ofList before))
            (l.shown (l.user.toList ++ before)) := by
  constructor
  · intro password h
    have hmask : maskUrl (l.url password) = l.masked := by
      rw [Login.maskUrl_url, Login.split_of_hides h, Login.shown_scheme]
    rw [validate_proxy, hmask, Login.hasProxyScheme_url, Login.split_of_hides h]
    refine ⟨congrArg some hmask, ?_⟩
    cases l.scheme <;> simp
  · intro password before after hscheme hsplit
    have hread : (l.split password).map Prod.fst = some (l.user.toList ++ before) := by
      simp only [Login.split, hscheme, hsplit, Option.map_some]
    have hmask : maskUrl (l.url password) = l.shown (l.user.toList ++ before) := by
      rw [Login.maskUrl_url, hread, Option.getD_some]
    rw [validate_proxy, hmask, Login.hasProxyScheme_url, hread]
    refine ⟨congrArg some hmask, ?_⟩
    simp [String.ofList_append]

/-- A proxy without a scheme. -/
def schemeless : Login :=
  ⟨none, "user", "proxy.local:3128", nofun, by decide, by decide⟩

theorem maskedProxy_login_schemeless :
    schemeless.Hides "other" ∧
    { proxy := some (schemeless.url "other") : Config }.maskedProxy = some "****@proxy.local:3128" ∧
    { proxy := some (schemeless.url "secret://x") : Config }.maskedProxy =
      some "user:secret://****@proxy.local:3128" ∧
    { proxy := some (schemeless.url "secret://x") : Config }.validate =
      .error (.invalidProxy "user:secret://****@proxy.local:3128") := by
  have hhides : schemeless.Hides "other" := by
    rintro -
    rw [← Text.isSome_splitFirst?_iff]
    decide +kernel
  obtain ⟨hhidden, hshown⟩ := maskedProxy_login {} schemeless
  obtain ⟨hmasked, hvalid⟩ := hshown "secret://x" ":secret".toList "x".toList rfl (by decide +kernel)
  have htext : schemeless.shown (schemeless.user.toList ++ ":secret".toList) =
      "user:secret://****@proxy.local:3128" := by
    decide +kernel
  rw [htext] at hmasked hvalid
  refine ⟨hhides, (hhidden "other" hhides).1.trans (by decide +kernel), hmasked, hvalid.trans ?_⟩
  decide +kernel

/-- Two passwords that the masked texts of a proxy tell apart, the first of them in full view. -/
theorem maskedProxy_shows_password :
    schemeless.url "secret://x" = "user:secret://x@proxy.local:3128" ∧
    maskUrl (schemeless.url "secret://x") = "user:secret://****@proxy.local:3128" ∧
    maskUrl (schemeless.url "other") = schemeless.masked ∧
    maskUrl (schemeless.url "secret://x") ≠ maskUrl (schemeless.url "other") := by
  decide +kernel

end Config

end IpRegistry
