import IntentEngineering.Library.JsonReads

namespace Json
open Decimal Binary64 JsonNumber FloatText

-- A piece of text that reads as one character of a string.
def ReadsChar (c : Char) (piece : List Char) : Prop :=
  piece ≠ [] ∧ piece.head? ≠ some '"' ∧ ∀ rest, stringChar (piece ++ rest) = some (c,rest)

theorem readsChars_end : ReadsChars [] ['"'] := by
  intro fuel rest enough
  cases fuel with
  | zero => cases enough
  | succ fuel => simp [scanString]

theorem readsChars_more (first : ReadsChar c piece) (later : ReadsChars body raw) :
    ReadsChars (c :: body) (piece ++ raw) := by
  intro fuel rest enough
  obtain ⟨nonempty,open',read⟩ := first
  cases piece with
  | nil => exact (nonempty rfl).elim
  | cons e es =>
    cases fuel with
    | zero => simp at enough
    | succ fuel =>
      simp only [List.length_append,List.length_cons] at enough
      have other : e ≠ '"' := by simpa using open'
      have here := read (raw ++ rest)
      have rests := later fuel rest (by omega)
      rw [List.cons_append] at here
      simp only [List.append_assoc,List.cons_append,scanString,other,if_false,here,Option.bind_some,rests,
        Option.map_some]

theorem hexValue_hexDigit (small : n < 16) : hexValue (hexDigit n) = some n := by
  have each : ∀ n < 16, hexValue (hexDigit n) = some n := by decide
  exact each n small

theorem readsChar_escape (c : Char) : ReadsChar c (escape c) := by
  unfold escape
  split
  · rename_i same; subst same; exact ⟨by simp,by simp,fun _ => rfl⟩
  split
  · rename_i same; subst same; exact ⟨by simp,by simp,fun _ => rfl⟩
  split
  · rename_i same; subst same; exact ⟨by simp,by simp,fun _ => rfl⟩
  split
  · rename_i same; subst same; exact ⟨by simp,by simp,fun _ => rfl⟩
  split
  · rename_i same; subst same; exact ⟨by simp,by simp,fun _ => rfl⟩
  split
  · rename_i code
    have same : Char.ofNat 8 = c := by rw [←code]; exact Char.ofNat_toNat c
    subst same
    exact ⟨by simp,by simp,fun _ => rfl⟩
  split
  · rename_i code
    have same : Char.ofNat 12 = c := by rw [←code]; exact Char.ofNat_toNat c
    subst same
    exact ⟨by simp,by simp,fun _ => rfl⟩
  split
  · rename_i control
    refine ⟨by simp,by simp,fun rest => ?_⟩
    have high : hexValue (hexDigit (c.toNat / 16)) = some (c.toNat / 16) := hexValue_hexDigit (by omega)
    have low : hexValue (hexDigit (c.toNat % 16)) = some (c.toNat % 16) := hexValue_hexDigit (by omega)
    have zero : hexValue '0' = some 0 := rfl
    have unit : (0 * 16 + 0) * 256 + (c.toNat / 16 * 16 + c.toNat % 16) = c.toNat := by omega
    have read : hex4 ('0' :: '0' :: hexDigit (c.toNat / 16) :: hexDigit (c.toNat % 16) :: rest) =
        some (c.toNat,rest) := by
      simp only [hex4,high,low,zero,Option.bind_eq_bind,Option.bind_some,Option.pure_def]
      rw [unit]
    have whole : unicodeEscape ('0' :: '0' :: hexDigit (c.toNat / 16) :: hexDigit (c.toNat % 16) :: rest) =
        some (c,rest) := by
      have noHigh : ¬(0xD800 ≤ c.toNat ∧ c.toNat < 0xDC00) := by omega
      have noLow : ¬(0xDC00 ≤ c.toNat ∧ c.toNat < 0xE000) := by omega
      simp [unicodeEscape,read,noHigh,noLow]
    simp [stringChar,whole]
  · rename_i mark back newline return' tab backspace feed control
    refine ⟨by simp,by simpa using mark,fun rest => ?_⟩
    simp [stringChar,back,control]

theorem readsChars_text (cs : List Char) : ReadsChars cs (cs.flatMap escape ++ ['"']) := by
  induction cs with
  | nil => exact readsChars_end
  | cons c cs ih =>
    rw [List.flatMap_cons,List.append_assoc]
    exact readsChars_more (readsChar_escape c) ih

theorem reads_stringText (d : Dialect) (s : String) : Reads d (.str s) (stringText s) := by
  have read := reads_string (d := d) (readsChars_text s.toList)
  rwa [String.ofList_toList] at read

theorem hex4_sound (got : hex4 cs = some (unit,rest)) :
    ∃ piece, cs = piece ++ rest ∧ ∀ rest', hex4 (piece ++ rest') = some (unit,rest') := by
  unfold hex4 at got
  split at got
  · rename_i a b c d cs
    simp only [Option.bind_eq_bind,Option.bind_eq_some_iff,Option.pure_def,Option.some.injEq,Prod.mk.injEq] at got
    obtain ⟨va,ha,vb,hb,vc,hc,vd,hd,rfl,rfl⟩ := got
    exact ⟨[a,b,c,d],rfl,fun rest' => by simp [hex4,ha,hb,hc,hd]⟩
  · cases got

theorem unicodeEscape_sound (got : unicodeEscape cs = some (c,rest)) :
    ∃ piece, cs = piece ++ rest ∧ ∀ rest', unicodeEscape (piece ++ rest') = some (c,rest') := by
  simp only [unicodeEscape,Option.bind_eq_bind,Option.bind_eq_some_iff] at got
  obtain ⟨⟨unit,after⟩,read,got⟩ := got
  obtain ⟨piece,rfl,again⟩ := hex4_sound read
  simp only at got
  split at got
  · rename_i high
    split at got
    · rename_i low
      simp only [Option.bind_eq_some_iff] at got
      obtain ⟨⟨second,after'⟩,read',got⟩ := got
      obtain ⟨piece',rfl,again'⟩ := hex4_sound read'
      simp only at got
      split at got
      · rename_i paired
        simp only [Option.pure_def,Option.some.injEq,Prod.mk.injEq] at got
        obtain ⟨rfl,rfl⟩ := got
        refine ⟨piece ++ '\\' :: 'u' :: piece',by simp,fun rest' => ?_⟩
        simp [unicodeEscape,again,high,again',paired]
      · cases got
    · cases got
  · rename_i notHigh
    split at got
    · cases got
    · rename_i notLow
      simp only [Option.pure_def,Option.some.injEq,Prod.mk.injEq] at got
      obtain ⟨rfl,rfl⟩ := got
      exact ⟨piece,rfl,fun rest' => by simp [unicodeEscape,again,notHigh,notLow]⟩

theorem stringChar_sound (got : stringChar cs = some (c,rest)) (open' : cs.head? ≠ some '"') :
    ∃ piece, cs = piece ++ rest ∧ ReadsChar c piece := by
  cases cs with
  | nil => cases got
  | cons e cs =>
    simp only [stringChar] at got
    split at got
    · rename_i back
      subst back
      cases cs with
      | nil => cases got
      | cons f cs =>
        simp only at got
        split at got
        · rename_i unicode
          subst unicode
          obtain ⟨piece,rfl,again⟩ := unicodeEscape_sound got
          exact ⟨'\\' :: 'u' :: piece,rfl,by simp,by simp,fun rest' => by simp [stringChar,again]⟩
        · rename_i simple
          simp only [Option.map_eq_some_iff,Prod.mk.injEq] at got
          obtain ⟨found,read,rfl,rfl⟩ := got
          exact ⟨['\\',f],rfl,by simp,by simp,fun rest' => by simp [stringChar,simple,read]⟩
    · rename_i plain
      split at got
      · cases got
      · rename_i visible
        cases got
        exact ⟨[c],rfl,by simp,open',fun rest' => by simp [stringChar,plain,visible]⟩

theorem scanString_sound (got : scanString fuel cs = some (body,rest)) :
    ∃ raw, cs = raw ++ rest ∧ ReadsChars body raw := by
  induction fuel generalizing cs body with
  | zero => cases cs <;> cases got
  | succ fuel ih =>
    cases cs with
    | nil => cases got
    | cons c cs =>
      simp only [scanString] at got
      split at got
      · rename_i mark
        cases got
        exact ⟨['"'],by rw [mark]; rfl,readsChars_end⟩
      · rename_i inside
        simp only [Option.bind_eq_some_iff,Option.map_eq_some_iff,Prod.mk.injEq] at got
        obtain ⟨⟨first,after⟩,here,⟨later,last⟩,read,rfl,rfl⟩ := got
        obtain ⟨piece,shape,char⟩ := stringChar_sound here (by simpa using inside)
        obtain ⟨raw,rfl,chars⟩ := ih read
        exact ⟨piece ++ raw,by rw [shape,List.append_assoc],readsChars_more char chars⟩

end Json
