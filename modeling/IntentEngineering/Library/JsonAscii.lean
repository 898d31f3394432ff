import IntentEngineering.Library.JsonChars
import IntentEngineering.Library.JsonSound

namespace Json
open Decimal Binary64 JsonNumber FloatText

theorem asciiChar_printable (printable : Printable c) : asciiChar c = [c] := by
  obtain ⟨high,low⟩ := printable
  rw [asciiChar,if_pos ⟨high,by omega⟩]

theorem ascii_printable {cs : List Char} (printable : ∀ c ∈ cs, Printable c) : cs.flatMap asciiChar = cs := by
  induction cs with
  | nil => rfl
  | cons c cs ih =>
    rw [List.flatMap_cons,asciiChar_printable (printable c (by simp)),ih fun e member => printable e (by simp [member])]
    rfl

theorem escape_high (high : 127 ≤ c.toNat) : escape c = [c] := by
  have other (e : Char) (low : e.toNat < 127) : c ≠ e := by
    intro same
    rw [same] at high
    omega
  simp only [escape,other '"' (by decide),other '\\' (by decide),other '\n' (by decide),other '\r' (by decide),
    other '\t' (by decide),if_false]
  rw [if_neg (by omega),if_neg (by omega),if_neg (by omega)]

theorem escape_printable (low : c.toNat < 127) : ∀ e ∈ escape c, Printable e := by
  intro e member
  rcases escape_drawn c e member with printable | high
  · exact printable
  · obtain ⟨high,same⟩ := high
    rw [same]
    exact ⟨same ▸ high,low⟩

theorem hex4_escapeUnit (small : n < 65536) (rest : List Char) :
    hex4 (hexDigit (n / 4096 % 16) :: hexDigit (n / 256 % 16) :: hexDigit (n / 16 % 16) :: hexDigit (n % 16) :: rest) =
      some (n,rest) := by
  have digit (d : Nat) : hexValue (hexDigit (d % 16)) = some (d % 16) := hexValue_hexDigit (Nat.mod_lt _ (by omega))
  simp only [hex4,digit,Option.bind_eq_bind,Option.bind_some,Option.pure_def,Option.some.injEq,Prod.mk.injEq,and_true]
  omega

theorem stringChar_unit {c : Char} (unit : c.toNat < 65536) (valid : c.toNat < 0xD800 ∨ 0xDFFF < c.toNat ∧ c.toNat < 0x110000)
    (rest : List Char) : stringChar (escapeUnit c.toNat ++ rest) = some (c,rest) := by
  have noHigh : ¬(0xD800 ≤ c.toNat ∧ c.toNat < 0xDC00) := by omega
  have noLow : ¬(0xDC00 ≤ c.toNat ∧ c.toNat < 0xE000) := by omega
  simp [escapeUnit,stringChar,unicodeEscape,hex4_escapeUnit unit,noHigh,noLow]

theorem stringChar_pair {c : Char} (wide : 65536 ≤ c.toNat) (valid : c.toNat < 0x110000) (rest : List Char) :
    stringChar (escapeUnit (55296 + (c.toNat - 65536) / 1024) ++ escapeUnit (56320 + (c.toNat - 65536) % 1024) ++ rest) =
      some (c,rest) := by
  obtain ⟨high,highDef⟩ : ∃ n, n = 55296 + (c.toNat - 65536) / 1024 := ⟨_,rfl⟩
  obtain ⟨low,lowDef⟩ : ∃ n, n = 56320 + (c.toNat - 65536) % 1024 := ⟨_,rfl⟩
  have first : 0xD800 ≤ high ∧ high < 0xDC00 := by omega
  have second : 0xDC00 ≤ low ∧ low < 0xE000 := by omega
  have joined : 0x10000 + (high - 0xD800) * 0x400 + (low - 0xDC00) = c.toNat := by omega
  rw [←highDef,←lowDef]
  have before (more : List Char) := hex4_escapeUnit (n := high) (by omega) more
  have after := hex4_escapeUnit (n := low) (by omega) rest
  simp only [escapeUnit,stringChar,List.cons_append,List.nil_append,if_true,unicodeEscape,before,
    Option.bind_eq_bind,Option.bind_some,after]
  rw [if_pos first,if_pos second,joined,Char.ofNat_toNat]
  rfl

-- A character outside ASCII is read back from its one or two escapes.
theorem readsChar_ascii (c : Char) : ReadsChar c ((escape c).flatMap asciiChar) := by
  by_cases low : c.toNat < 127
  · rw [ascii_printable (escape_printable low)]
    exact readsChar_escape c
  · rw [escape_high (by omega),List.flatMap_singleton,asciiChar,if_neg (by omega)]
    have valid : c.toNat < 0xD800 ∨ 0xDFFF < c.toNat ∧ c.toNat < 0x110000 := c.valid
    split
    · rename_i unit
      exact ⟨by simp [escapeUnit],by simp [escapeUnit],fun rest => stringChar_unit unit valid rest⟩
    · rename_i wide
      refine ⟨by simp [escapeUnit],by simp [escapeUnit],fun rest => ?_⟩
      exact stringChar_pair (by omega) (by omega) rest

theorem readsChars_ascii (cs : List Char) : ReadsChars cs ((cs.flatMap escape).flatMap asciiChar ++ ['"']) := by
  induction cs with
  | nil => exact readsChars_end
  | cons c cs ih =>
    rw [List.flatMap_cons,List.flatMap_append,List.append_assoc]
    exact readsChars_more (readsChar_ascii c) ih

def asciiItems (vs : List Json) : List Char := (itemsText vs).flatMap asciiChar

def asciiMembers (ms : Members) : List Char := (membersText ms).flatMap asciiChar

def asciiBody (s : String) : List Char := (s.toList.flatMap escape).flatMap asciiChar ++ ['"']

theorem asciiChar_ascii {c : Char} (printable : Printable c) (cs : List Char) :
    (c :: cs).flatMap asciiChar = c :: cs.flatMap asciiChar := by
  rw [List.flatMap_cons,asciiChar_printable printable]
  rfl

theorem ascii_stringText (s : String) : (stringText s).flatMap asciiChar = '"' :: asciiBody s := by
  rw [stringText,asciiChar_ascii (by decide),stringBody,List.flatMap_append,asciiBody]
  rfl

theorem asciiText_str (s : String) : asciiText (.str s) = '"' :: asciiBody s := by
  rw [asciiText,text,ascii_stringText]

theorem asciiText_arr (v : Json) (vs : List Json) : asciiText (.arr (v :: vs)) = '[' :: (asciiText v ++ asciiItems vs) := by
  rw [asciiText,text,asciiChar_ascii (by decide),List.flatMap_append]
  rfl

theorem asciiItems_cons (v : Json) (vs : List Json) : asciiItems (v :: vs) = ',' :: (asciiText v ++ asciiItems vs) := by
  rw [asciiItems,itemsText,asciiChar_ascii (by decide),List.flatMap_append]
  rfl

theorem asciiText_obj (k : String) (v : Json) (ms : Members) :
    asciiText (.obj ((k,v) :: ms)) = '{' :: '"' :: (asciiBody k ++ ':' :: (asciiText v ++ asciiMembers ms)) := by
  rw [asciiText,text,asciiChar_ascii (by decide),List.flatMap_append,ascii_stringText,asciiChar_ascii (by decide),
    List.flatMap_append]
  rfl

theorem asciiMembers_cons (k : String) (v : Json) (ms : Members) :
    asciiMembers ((k,v) :: ms) = ',' :: '"' :: (asciiBody k ++ ':' :: (asciiText v ++ asciiMembers ms)) := by
  rw [asciiMembers,membersText,asciiChar_ascii (by decide),List.flatMap_append,ascii_stringText,asciiChar_ascii (by decide),
    List.flatMap_append]
  rfl

theorem asciiText_starts (v : Json) : Starts (asciiText v) := by
  obtain ⟨c,cs,shape,solid,array⟩ := text_starts v
  cases v with
  | str s => exact starts_of (asciiText_str s) rfl (by decide)
  | arr vs => cases vs <;> exact starts_of rfl rfl (by decide)
  | obj ms => cases ms <;> exact starts_of rfl rfl (by decide)
  | null => exact starts_of rfl rfl (by decide)
  | bool b => cases b <;> exact starts_of rfl rfl (by decide)
  | int n =>
    have plain : asciiText (.int n) = text (.int n) := ascii_printable (token_printable (intToken_shaped n))
    exact starts_of (plain.trans shape) solid array
  | float x =>
    have plain : asciiText (.float x) = text (.float x) := ascii_printable (floatText_printable x)
    exact starts_of (plain.trans shape) solid array

-- The same round trip with the characters outside ASCII escaped.
mutual
theorem reads_asciiText (d : Dialect) : (v : Json) → WellFormed v → (d.constants = true ∨ allFinite v = true) →
    Reads d v (asciiText v)
  | .null,formed,known => reads_text d .null formed known
  | .bool true,formed,known => reads_text d (.bool true) formed known
  | .bool false,formed,known => reads_text d (.bool false) formed known
  | .int n,formed,known => by
    have plain : asciiText (.int n) = text (.int n) := ascii_printable (token_printable (intToken_shaped n))
    rw [plain]
    exact reads_text d _ formed known
  | .float x,formed,known => by
    have plain : asciiText (.float x) = text (.float x) := ascii_printable (floatText_printable x)
    rw [plain]
    exact reads_text d _ formed known
  | .str s,_,_ => by
    have read := reads_string (d := d) (readsChars_ascii s.toList)
    rw [String.ofList_toList] at read
    rw [asciiText_str]
    exact read
  | .arr [],_,_ => reads_arr_nil blank_nil
  | .arr (v :: vs),formed,known => by
    simp only [WellFormed,WellFormedItems] at formed
    simp only [allFinite,allFiniteItems,Bool.and_eq_true] at known
    have later := reads_asciiItems d v vs (reads_asciiText d v formed.1 (known.imp id And.left)) formed.2
      (known.imp id And.right)
    rw [asciiText_arr]
    exact reads_arr (w := []) blank_nil ((asciiText_starts v).append _) later
  | .obj [],_,_ => reads_obj_nil blank_nil
  | .obj ((k,v) :: ms),formed,known => by
    simp only [WellFormed,WellFormedMembers] at formed
    simp only [allFinite,allFiniteMembers,Bool.and_eq_true] at known
    have later := reads_asciiMembers d k v ms (reads_asciiText d v formed.2.1 (known.imp id And.left)) formed.2.2
      (known.imp id And.right)
    rw [asciiText_obj]
    exact reads_obj blank_nil later (buildObject_sorted d formed.1)

theorem reads_asciiItems (d : Dialect) (v : Json) : (vs : List Json) → Reads d v (asciiText v) → WellFormedItems vs →
    (d.constants = true ∨ allFiniteItems vs = true) → ReadsItems d (v :: vs) (asciiText v ++ asciiItems vs)
  | [],first,_,_ => readsItems_last first blank_nil
  | w :: vs,first,formed,known => by
    simp only [WellFormedItems] at formed
    simp only [allFiniteItems,Bool.and_eq_true] at known
    have later := reads_asciiItems d w vs (reads_asciiText d w formed.1 (known.imp id And.left)) formed.2
      (known.imp id And.right)
    have read := readsItems_more (w := []) first blank_nil blank_nil ((asciiText_starts w).append _) later
    simpa [asciiItems_cons] using read

theorem reads_asciiMembers (d : Dialect) (k : String) (v : Json) : (ms : List (String × Json)) → Reads d v (asciiText v) →
    WellFormedMembers ms → (d.constants = true ∨ allFiniteMembers ms = true) →
    ReadsMembers d ((k,v) :: ms) ('"' :: (asciiBody k ++ ':' :: (asciiText v ++ asciiMembers ms)))
  | [],first,_,_ => by
    have read := readsMembers_last (readsChars_ascii k.toList) blank_nil blank_nil (asciiText_starts v) first blank_nil
    simpa [memberText,asciiBody,asciiMembers,membersText,asciiChar_printable (show Printable '}' by decide)] using read
  | (k',w) :: ms,first,formed,known => by
    simp only [WellFormedMembers] at formed
    simp only [allFiniteMembers,Bool.and_eq_true] at known
    have later := reads_asciiMembers d k' w ms (reads_asciiText d w formed.1 (known.imp id And.left)) formed.2
      (known.imp id And.right)
    have read := readsMembers_more (readsChars_ascii k.toList) blank_nil blank_nil (asciiText_starts v) first blank_nil
      blank_nil later
    simpa [memberText,asciiBody,asciiMembers_cons] using read
end

theorem loads_asciiText (d : Dialect) (formed : WellFormed v) (known : d.constants = true ∨ allFinite v = true)
    (blank : Blank w) : loads d (w ++ asciiText v) = some v := by
  have whole := loads_reads [] blank (asciiText_starts v) (reads_asciiText d v formed known) (fun _ => stops_nil)
  simpa [skipWs] using whole

end Json
