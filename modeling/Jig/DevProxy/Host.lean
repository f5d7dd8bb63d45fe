import Jig.Lib.Fallible
import Jig.Lib.Text

/-!
# Hosts of the development proxy

Which texts are hostnames the proxy routes, and which are hosts it forwards to. A routed hostname is
kept in lower case, so two routes have one hostname exactly when the texts are equal.
-/

namespace Jig.DevProxy

open Lib

structure ProxyLibraries where
  /-- `str::parse::<IpAddr>` succeeds. -/
  isIpLiteral : String → Bool
  /-- `process_start_tokens_supported`: the platform is Linux or macOS. -/
  processStartTokensSupported : Bool

def allowedTldSuffixes : List String :=
  ["localhost", "local", "test", "internal"]

def validateHostname (hostname : String) : Except String Unit := do
  (if hostname.isEmpty || 253 < hostname.utf8ByteSize || Text.containsChar ':' hostname then
    .error ("invalid hostname '" ++ hostname ++ "'")
  else
    pure ())
  (Text.split '.' hostname).forM fun label => do
    (if label.isEmpty || 63 < label.utf8ByteSize then
      .error ("invalid hostname '" ++ hostname ++ "'")
    else
      pure ())
    (if Text.startsWithChar '-' label || Text.endsWith "-" label then
      .error ("invalid hostname '" ++ hostname ++ "'")
    else
      pure ())
    (if !label.toList.all (fun ch => ch.isAlphanum || ch == '-') then
      .error ("invalid hostname '" ++ hostname ++ "'")
    else
      pure ())

def validateTld (tld : String) : Except String Unit := do
  validateHostname tld
  let tld := tld.map Char.toLower
  match Text.split '.' tld with
  | [label] =>
      if label ∈ allowedTldSuffixes then pure () else .error (notAllowed tld)
  | [_, label] =>
      if label ∈ allowedTldSuffixes then pure () else .error (notAllowed tld)
  | _ => .error (notAllowed tld)
where
  notAllowed (tld : String) : String :=
    "dev proxy TLD '" ++ tld ++
      "' is not allowed. Use a private/local suffix such as localhost, local, test, or internal."

def validateRoutedHostname (hostname : String) : Except String Unit := do
  validateHostname hostname
  let labels := Text.split '.' hostname
  if labels.length < 2 then
    .error ("routed hostname '" ++ hostname ++ "' must include a private/local suffix")
  else if labels.getLast?.any (· ∈ allowedTldSuffixes) then
    pure ()
  -- a suffix of two labels is accepted where `validate_tld` accepts it
  else if 3 ≤ labels.length ∧
      (validateTld (Text.join "." (labels.drop (labels.length - 2)))).isOk then
    pure ()
  else
    .error ("routed hostname '" ++ hostname ++ "' must end in a private/local suffix such as " ++
      "localhost, local, test, or internal")

def validateRouteTargetHost (libraries : ProxyLibraries) (host : String) : Except String Unit :=
  if libraries.isIpLiteral host then
    pure ()
  else if Text.containsChar ':' host then
    .error ("invalid route target host '" ++ host ++ "'")
  else
    validateHostname host

structure RouteHostname where
  value : String
  lowercase : value.map Char.toLower = value
  routed : validateRoutedHostname value = .ok ()
deriving DecidableEq

structure TargetHost (libraries : ProxyLibraries) where
  value : String
  valid : validateRouteTargetHost libraries value = .ok ()
deriving DecidableEq

end Jig.DevProxy
