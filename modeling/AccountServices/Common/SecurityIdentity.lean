import AccountServices.Common.Types

/-!
# Security keys

`common/security_identity.hpp`: a security is known under the key `<MIC>_<code>`; keys of older
files, `<market>.<code>`, are still read and brought into that form.
-/

set_option autoImplicit false

namespace AccountServices

/-- The bytes of an ASCII text. -/
def asciiBytes (text : List Char) : Bytes := text.map fun c => UInt8.ofNat c.toNat

/-- `market_to_mic`. -/
def marketToMic : Market → Bytes
  | .sz => asciiBytes ['X', 'S', 'H', 'E']
  | .sh => asciiBytes ['X', 'S', 'H', 'G']
  | .bj => asciiBytes ['B', 'J', 'S', 'E']
  | .hk => asciiBytes ['X', 'H', 'K', 'G']
  | _ => []

/-- `parse_legacy_market_prefix`. -/
def parseLegacyMarket (mark : Bytes) : Option Market :=
  if mark = asciiBytes ['S', 'Z'] then some .sz
  else if mark = asciiBytes ['S', 'H'] then some .sh
  else if mark = asciiBytes ['B', 'J'] then some .bj
  else if mark = asciiBytes ['H', 'K'] then some .hk
  else none

/-- `parse_mic_market_prefix`. -/
def parseMicMarket (mark : Bytes) : Option Market :=
  if mark = marketToMic .sz then some .sz
  else if mark = marketToMic .sh then some .sh
  else if mark = marketToMic .bj then some .bj
  else if mark = marketToMic .hk then some .hk
  else none

/-- `split_internal_security_id`: the parts before and after the first delimiter, when both are
non-empty. -/
def splitInternalSecurityId (internalId : Bytes) (delimiter : UInt8) : Option (Bytes × Bytes) :=
  let separator := internalId.idxOf delimiter
  if separator = internalId.length ∨ separator = 0 ∨ internalId.length ≤ separator + 1 then none
  else some (internalId.take separator, internalId.drop (separator + 1))

/-- `parse_internal_security_id`. A key with an underscore split is never tried as a legacy key. -/
def parseInternalSecurityId (internalId : Bytes) : Option (Market × Bytes) :=
  match splitInternalSecurityId internalId (UInt8.ofNat '_'.toNat) with
  | some (mark, code) =>
      if code.isEmpty then none else (parseMicMarket mark).map fun m => (m, code)
  | none =>
      match splitInternalSecurityId internalId (UInt8.ofNat '.'.toNat) with
      | some (mark, code) =>
          if code.isEmpty then none else (parseLegacyMarket mark).map fun m => (m, code)
      | none => none

/-- `build_internal_security_id`: the market must have an MIC, and the code must leave the sixteen
bytes of the key room for the MIC, the underscore and the terminator. -/
def buildInternalSecurityId (market : Market) (securityId : Bytes) : Option InternalSecurityId :=
  let mic := marketToMic market
  if mic.isEmpty then none
  else if securityId.isEmpty ∨ 15 - mic.length - 1 < securityId.length then none
  else some (FixedString.assign (mic ++ UInt8.ofNat '_'.toNat :: securityId))

/-- `normalize_internal_security_id`. -/
def normalizeInternalSecurityId (internalId : Bytes) : Option InternalSecurityId :=
  match parseInternalSecurityId internalId with
  | some (market, code) => buildInternalSecurityId market code
  | none => none

/-- `normalize_order_security_key` of the order book and `normalize_security_key` of the position
manager: an empty key is refused before the key is parsed. -/
def normalizeSecurityKey (securityKey : Bytes) : Option InternalSecurityId :=
  if securityKey.isEmpty then none else normalizeInternalSecurityId securityKey

end AccountServices
