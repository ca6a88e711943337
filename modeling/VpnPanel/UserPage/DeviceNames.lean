import VpnPanel.Backend.Schema
import VpnPanel.Lib.Unicode

/-!
# Names of devices

A name is checked by the page before it is sent (`utils/deviceNames.ts`) and by
the backend when it arrives (`_normalize_device_name` of `routers/user_page.py`).
Both read it by code points: the page's spread and its pattern with the flag `u`
do, and each character `trim` takes off is one code unit.
-/

namespace VpnPanel.UserPage

open VpnPanel.Lib

def MAX_DEVICE_NAME_LENGTH : Nat := 64

inductive DeviceNameError
  | blank | tooLong | controlChars
  deriving DecidableEq, Repr

inductive DeviceNameCheck
  | ok (name : List CodePoint)
  | error (error : DeviceNameError)
  deriving DecidableEq

/-- The white space and the line terminators of the language. -/
def isTrimmed (data : UnicodeData) (c : CodePoint) : Bool :=
  c.val ∈ [0x09, 0x0b, 0x0c, 0xfeff] || data.category c = .zs ||
    c.val ∈ [0x0a, 0x0d, 0x2028, 0x2029]

/-- `/[\p{Cc}\p{Cf}\p{Cs}]/u` -/
def controlCharacter (data : UnicodeData) (c : CodePoint) : Bool :=
  data.category c ∈ [.cc, .cf, .cs]

def normalizeDeviceName (data : UnicodeData) (raw : List CodePoint) : DeviceNameCheck :=
  let name := trim (isTrimmed data) (data.nfc raw)
  if name = [] then .error .blank
  else if name.any (controlCharacter data) then .error .controlChars
  else if MAX_DEVICE_NAME_LENGTH < name.length then .error .tooLong
  else .ok name

end VpnPanel.UserPage

namespace VpnPanel.Backend

open VpnPanel.Lib

def MAX_DEVICE_NAME_LENGTH : Nat := 64

/-- What `str.strip` takes off: the separators of category Zs, and the characters
whose bidirectional class is WS, B or S. -/
def isSpace (data : UnicodeData) (c : CodePoint) : Bool :=
  data.category c = .zs || c.val ∈ [0x09, 0x0a, 0x0b, 0x0c, 0x0d, 0x1c, 0x1d, 0x1e, 0x1f, 0x85,
    0x2028, 0x2029]

/-- `unicodedata.category(char).startswith('C')` -/
def categoryC (data : UnicodeData) (c : CodePoint) : Bool :=
  data.category c ∈ [.cc, .cf, .cs, .co, .cn]

def normalizeDeviceName (data : UnicodeData) (raw : List CodePoint) :
    Except HttpError (List CodePoint) :=
  let name := trim (isSpace data) (data.nfc raw)
  if name = [] then .error ⟨422, "Device name must not be blank"⟩
  else if MAX_DEVICE_NAME_LENGTH < name.length then
    .error ⟨422, s!"Device name must be at most {MAX_DEVICE_NAME_LENGTH} characters"⟩
  else if name.any (categoryC data) then
    .error ⟨422, "Device name must not contain control characters"⟩
  else .ok name

end VpnPanel.Backend
