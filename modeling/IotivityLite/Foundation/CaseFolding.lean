import IotivityLite.Foundation.Memory

/-!
# Texts up to case

Characters of ASCII in lower case, and texts that agree when their case is
ignored.
-/

namespace IotivityLite

/-- `tolower` in the locale of C -/
def toLower (character : UInt8) : UInt8 :=
  if 65 ≤ character && character ≤ 90 then character + 32 else character

theorem toLower_toLower (character : UInt8) :
    toLower (toLower character) = toLower character := by
  apply forall_byte (fun number below => ?_) character
  revert number
  decide +kernel

/-- The texts agree when their case is ignored. -/
def SameFolded (first second : Bytes) : Prop :=
  first.map toLower = second.map toLower

namespace SameFolded

variable {first second third : Bytes}

theorem refl (text : Bytes) : SameFolded text text := rfl

theorem length (same : SameFolded first second) :
    first.length = second.length := by
  have lengths := congrArg List.length same
  rwa [List.length_map, List.length_map] at lengths

end SameFolded

end IotivityLite
