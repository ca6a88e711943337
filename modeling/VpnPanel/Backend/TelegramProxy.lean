import Mathlib.Data.List.Infix
import VpnPanel.Lib.Text

/-!
# The public host of a Telegram proxy

`normalize_public_host` of `services/telegram_proxy.py` and `_host_from_endpoint`
of the worker routes. `lower` is `str.lower`.
-/

namespace VpnPanel.Backend

open VpnPanel.Lib VpnPanel.Lib.Text

section

variable (lower : Text → Text)

def normalizePublicHost (host : Text) : Except String Text :=
  if host ≠ strip host then
    .error "telegram proxy public host must not include surrounding whitespace"
  else if host = [] then .error "telegram proxy public host is required"
  else if "://".toList <:+: host ∨ '/' ∈ host ∨ '?' ∈ host ∨ '#' ∈ host ∨ '@' ∈ host then
    .error "telegram proxy public host must be a host, not a URL"
  else if ':' ∈ host ∧ ¬(host.head? = some '[' ∧ host.getLast? = some ']') then
    .error "telegram proxy public host must not include a port"
  else .ok (lower host)

def hostFromEndpoint : Option Text → Except String (Option Text)
  | none => .ok none
  | some endpoint =>
      if endpoint = [] then .ok none
      else if endpoint.head? = some '[' then
        if ']' ∈ endpoint then
          (normalizePublicHost lower (endpoint.takeWhile (· ≠ ']') ++ [']'])).map some
        else .ok none
      else (normalizePublicHost lower (endpoint.takeWhile (· ≠ ':'))).map some

end

end VpnPanel.Backend
