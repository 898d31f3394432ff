import IntentEngineering.Library.DateTime
import IntentEngineering.Library.Utf8

namespace Utf8

theorem encode_length (cs : List Char) : (encode cs).length ≤ 4 * cs.length := by
  induction cs with
  | nil => simp [encode]
  | cons c cs ih =>
    have one : (String.utf8EncodeChar c).length ≤ 4 := by
      simp only [String.length_utf8EncodeChar]
      exact Char.utf8Size_le_four c
    simp only [encode,List.flatMap_cons,List.length_append,List.length_cons] at ih ⊢
    omega

end Utf8

namespace Json

theorem escape_length (c : Char) : (escape c).length ≤ 6 := by
  unfold escape
  repeat' split
  all_goals simp

theorem stringText_length (s : String) : (stringText s).length ≤ 6 * s.toList.length + 2 := by
  have body : ∀ cs : List Char, (cs.flatMap escape).length ≤ 6 * cs.length := by
    intro cs
    induction cs with
    | nil => simp
    | cons c cs ih =>
      have one := escape_length c
      simp only [List.flatMap_cons,List.length_append,List.length_cons]
      omega
  have whole := body s.toList
  simp only [stringText,stringBody,List.length_cons,List.length_append,List.length_nil]
  omega

theorem text_str_length (s : String) : (text (.str s)).length ≤ 6 * s.toList.length + 2 := by
  simpa only [text] using stringText_length s

theorem text_obj_length (ms : Members) : (text (.obj ms)).length ≤ (membersText ms).length + 1 := by
  cases ms with
  | nil => exact Nat.le_refl _
  | cons m ms => simp [text,membersText]

theorem membersText_length {ms : Members} {most : Nat}
    (bounded : ∀ m ∈ ms, (stringText m.1).length + (text m.2).length + 2 ≤ most) :
    (membersText ms).length ≤ most * ms.length + 1 := by
  induction ms with
  | nil => simp [membersText]
  | cons m ms ih =>
    have here := bounded m (by simp)
    have later := ih fun other member => bounded other (by simp [member])
    simp only [membersText,List.length_cons,List.length_append,Nat.mul_add,Nat.mul_one]
    omega

end Json

namespace DateTime
open Decimal

theorem text_length (t : DateTime) : t.text.length ≤ 32 := by
  have fraction : (fractionText t.microsecond).length ≤ 7 := by
    unfold fractionText
    split <;> simp [padded_length]
  have zone : (zoneText t.offset).length ≤ 6 := by
    unfold zoneText
    split
    · simp
    · split <;> simp [padded_length]
  simp only [text,dateText,clockText,List.length_append,List.length_cons,padded_length]
  omega

end DateTime
