import IntentEngineering.Library.JsonShape

namespace Json
open Decimal Binary64 JsonNumber FloatText

-- Printable ASCII, the space included.
def Printable (c : Char) : Prop := 32 ≤ c.toNat ∧ c.toNat < 127

-- Every character is printable, or stands in one of these strings and is no
-- control character.
def DrawnFrom (found : List String) (cs : List Char) : Prop :=
  ∀ c ∈ cs, Printable c ∨ (32 ≤ c.toNat ∧ ∃ s ∈ found, c ∈ s.toList)

instance (c : Char) : Decidable (Printable c) := inferInstanceAs (Decidable (_ ∧ _))

theorem DrawnFrom.append (left : DrawnFrom found xs) (right : DrawnFrom found ys) : DrawnFrom found (xs ++ ys) := by
  intro c member
  rcases List.mem_append.mp member with first | second
  · exact left c first
  · exact right c second

theorem DrawnFrom.cons (first : Printable c) (later : DrawnFrom found cs) : DrawnFrom found (c :: cs) := by
  intro e member
  rcases List.mem_cons.mp member with rfl | rest
  · exact .inl first
  · exact later e rest

theorem DrawnFrom.weaken (drawn : DrawnFrom found cs) (more : ∀ s ∈ found, s ∈ wider) : DrawnFrom wider cs := by
  intro c member
  rcases drawn c member with printable | ⟨high,s,inside,has⟩
  · exact .inl printable
  · exact .inr ⟨high,s,more s inside,has⟩

theorem drawn_printable (printable : ∀ c ∈ cs, Printable c) : DrawnFrom found cs :=
  fun c member => .inl (printable c member)

theorem digit_printable (digit : isDigit c = true) : Printable c := by
  simp only [isDigit,Bool.and_eq_true,decide_eq_true_eq] at digit
  exact ⟨by omega,by omega⟩

theorem token_printable (shaped : Token.Shaped t) : ∀ c ∈ t.text, Printable c := by
  intro c member
  simp only [Token.text,Token.tail,List.mem_append] at member
  rcases member with (sign | digit) | fraction | exponent
  · cases negative : t.negative <;> simp only [negative] at sign
    · cases sign
    · simp only [if_true,List.mem_singleton] at sign
      subst sign
      decide
  · exact digit_printable (shaped.digits c digit)
  · split at fraction
    · cases fraction
    · rcases List.mem_cons.mp fraction with rfl | later
      · decide
      · exact digit_printable (shaped.fraction c later)
  · cases e : t.exponent with
    | none => simp [e] at exponent
    | some x =>
      obtain ⟨letter,sign,digits,_⟩ := shaped.exponent x e
      simp only [e,Option.map_some,Option.getD_some,Exponent.text,List.mem_cons,List.mem_append] at exponent
      rcases exponent with same | signed | digit
      · rcases letter with lower | upper
        · rw [same,lower]; decide
        · rw [same,upper]; decide
      · rcases sign with none | minus | plus
        · rw [none] at signed; cases signed
        · rw [minus,List.mem_singleton] at signed; rw [signed]; decide
        · rw [plus,List.mem_singleton] at signed; rw [signed]; decide
      · exact digit_printable (digits c digit)

theorem hexDigit_printable (small : n < 16) : Printable (hexDigit n) := by
  have each : ∀ n < 16, Printable (hexDigit n) := by decide
  exact each n small

theorem escape_drawn (c : Char) : ∀ e ∈ escape c, Printable e ∨ (32 ≤ e.toNat ∧ e = c) := by
  have escaped (cs : List Char) (printable : ∀ e ∈ cs, Printable e) :
      ∀ e ∈ cs, Printable e ∨ (32 ≤ e.toNat ∧ e = c) := fun e member => .inl (printable e member)
  unfold escape
  split
  · exact escaped _ (by decide)
  split
  · exact escaped _ (by decide)
  split
  · exact escaped _ (by decide)
  split
  · exact escaped _ (by decide)
  split
  · exact escaped _ (by decide)
  split
  · exact escaped _ (by decide)
  split
  · exact escaped _ (by decide)
  split
  · rename_i control
    refine escaped _ fun e member => ?_
    simp only [List.mem_cons,List.not_mem_nil,or_false] at member
    rcases member with rfl | rfl | rfl | rfl | rfl | rfl
    · decide
    · decide
    · decide
    · decide
    · exact hexDigit_printable (by omega)
    · exact hexDigit_printable (by omega)
  · rename_i control
    intro e member
    simp only [List.mem_singleton] at member
    subst member
    exact .inr ⟨by omega,rfl⟩

theorem stringBody_drawn (s : String) : DrawnFrom [s] (stringBody s) := by
  refine DrawnFrom.append (fun e member => ?_) (drawn_printable (by decide))
  obtain ⟨c,inside,piece⟩ := List.mem_flatMap.mp member
  rcases escape_drawn c e piece with printable | ⟨high,rfl⟩
  · exact .inl printable
  · exact .inr ⟨high,s,by simp,inside⟩

theorem floatText_printable (x : Float64) : ∀ c ∈ floatText x, Printable c := by
  cases x with
  | finite y => exact token_printable (reprFloat_shaped y)
  | infinite negative => cases negative <;> decide
  | nan => decide

mutual
theorem text_drawn : (v : Json) → DrawnFrom (strings v) (text v)
  | .null => drawn_printable (by decide)
  | .bool true => drawn_printable (by decide)
  | .bool false => drawn_printable (by decide)
  | .int n => drawn_printable (token_printable (intToken_shaped n))
  | .float x => drawn_printable (floatText_printable x)
  | .str s => DrawnFrom.cons (by decide) (stringBody_drawn s)
  | .arr [] => drawn_printable (by decide)
  | .arr (v :: vs) => DrawnFrom.cons (by decide)
      (((text_drawn v).weaken (by simp +contextual [strings,stringsItems])).append
        ((items_drawn vs).weaken (by simp +contextual [strings,stringsItems])))
  | .obj [] => drawn_printable (by decide)
  | .obj ((k,v) :: ms) => DrawnFrom.cons (by decide)
      (DrawnFrom.append (DrawnFrom.cons (by decide) ((stringBody_drawn k).weaken (by simp [strings,stringsMembers])))
        (DrawnFrom.cons (by decide)
          (((text_drawn v).weaken (by simp +contextual [strings,stringsMembers])).append
            ((members_drawn ms).weaken (by simp +contextual [strings,stringsMembers])))))

theorem items_drawn : (vs : List Json) → DrawnFrom (stringsItems vs) (itemsText vs)
  | [] => drawn_printable (by decide)
  | v :: vs => DrawnFrom.cons (by decide)
      (((text_drawn v).weaken (by simp +contextual [stringsItems])).append
        ((items_drawn vs).weaken (by simp +contextual [stringsItems])))

theorem members_drawn : (ms : List (String × Json)) → DrawnFrom (stringsMembers ms) (membersText ms)
  | [] => drawn_printable (by decide)
  | (k,v) :: ms => DrawnFrom.cons (by decide)
      (DrawnFrom.append (DrawnFrom.cons (by decide) ((stringBody_drawn k).weaken (by simp [stringsMembers])))
        (DrawnFrom.cons (by decide)
          (((text_drawn v).weaken (by simp +contextual [stringsMembers])).append
            ((members_drawn ms).weaken (by simp +contextual [stringsMembers])))))
end

theorem stringBody_holds (member : c ∈ s.toList) (high : 127 ≤ c.toNat) : c ∈ stringBody s := by
  refine List.mem_append.mpr (.inl (List.mem_flatMap.mpr ⟨c,member,?_⟩))
  unfold escape
  split
  · rename_i same; subst same; simp at high
  split
  · rename_i same; subst same; simp at high
  split
  · rename_i same; subst same; simp at high
  split
  · rename_i same; subst same; simp at high
  split
  · rename_i same; subst same; simp at high
  split
  · omega
  split
  · omega
  split
  · omega
  · simp

-- What is not ASCII is written as itself.
mutual
theorem text_holds (high : 127 ≤ c.toNat) : (v : Json) → (∃ s ∈ strings v, c ∈ s.toList) → c ∈ text v
  | .null,⟨s,inside,_⟩ => by cases inside
  | .bool _,⟨s,inside,_⟩ => by cases inside
  | .int _,⟨s,inside,_⟩ => by cases inside
  | .float _,⟨s,inside,_⟩ => by cases inside
  | .str s,⟨t,inside,has⟩ => by
    simp only [strings,List.mem_singleton] at inside
    subst inside
    exact List.mem_cons_of_mem _ (stringBody_holds has high)
  | .arr [],⟨s,inside,_⟩ => by cases inside
  | .arr (v :: vs),⟨s,inside,has⟩ => by
    simp only [strings,stringsItems,List.mem_append] at inside
    simp only [text,List.mem_cons,List.mem_append]
    rcases inside with first | later
    · exact .inr (.inl (text_holds high v ⟨s,first,has⟩))
    · exact .inr (.inr (items_holds high vs ⟨s,later,has⟩))
  | .obj [],⟨s,inside,_⟩ => by cases inside
  | .obj ((k,v) :: ms),⟨s,inside,has⟩ => by
    simp only [strings,stringsMembers,List.mem_cons,List.mem_append] at inside
    simp only [text,stringText,List.mem_cons,List.mem_append]
    rcases inside with rfl | first | later
    · exact .inr (.inl (.inr (stringBody_holds has high)))
    · exact .inr (.inr (.inr (.inl (text_holds high v ⟨s,first,has⟩))))
    · exact .inr (.inr (.inr (.inr (members_holds high ms ⟨s,later,has⟩))))

theorem items_holds (high : 127 ≤ c.toNat) : (vs : List Json) → (∃ s ∈ stringsItems vs, c ∈ s.toList) →
    c ∈ itemsText vs
  | [],⟨s,inside,_⟩ => by cases inside
  | v :: vs,⟨s,inside,has⟩ => by
    simp only [stringsItems,List.mem_append] at inside
    simp only [itemsText,List.mem_cons,List.mem_append]
    rcases inside with first | later
    · exact .inr (.inl (text_holds high v ⟨s,first,has⟩))
    · exact .inr (.inr (items_holds high vs ⟨s,later,has⟩))

theorem members_holds (high : 127 ≤ c.toNat) : (ms : List (String × Json)) →
    (∃ s ∈ stringsMembers ms, c ∈ s.toList) → c ∈ membersText ms
  | [],⟨s,inside,_⟩ => by cases inside
  | (k,v) :: ms,⟨s,inside,has⟩ => by
    simp only [stringsMembers,List.mem_cons,List.mem_append] at inside
    simp only [membersText,stringText,List.mem_cons,List.mem_append]
    rcases inside with rfl | first | later
    · exact .inr (.inl (.inr (stringBody_holds has high)))
    · exact .inr (.inr (.inr (.inl (text_holds high v ⟨s,first,has⟩))))
    · exact .inr (.inr (.inr (.inr (members_holds high ms ⟨s,later,has⟩))))
end

-- Which characters of some kind outside printable ASCII stand in a text.
theorem text_avoids (kind : Char → Bool) (odd : ∀ c, kind c = true → c.toNat < 32 ∨ 127 ≤ c.toNat) (v : Json) :
    (∀ c ∈ text v, kind c = false) ↔ ∀ s ∈ strings v, ∀ c ∈ s.toList, kind c = true → c.toNat < 32 := by
  constructor
  · intro avoids s inside c has hit
    rcases odd c hit with low | high
    · exact low
    · have absent := avoids c (text_holds high v ⟨s,inside,has⟩)
      rw [hit] at absent
      cases absent
  · intro allowed c member
    by_contra hit
    simp only [Bool.not_eq_false] at hit
    rcases text_drawn v c member with printable | ⟨high,s,inside,has⟩
    · have sides := odd c hit
      obtain ⟨above,below⟩ := printable
      omega
    · have low := allowed s inside c has hit
      omega

-- One escape of the form `\uXXXX`.
def escapeUnit (n : Nat) : List Char :=
  ['\\','u',hexDigit (n / 4096 % 16),hexDigit (n / 256 % 16),hexDigit (n / 16 % 16),hexDigit (n % 16)]

-- A character beyond the basic plane is written as two surrogates.
def asciiChar (c : Char) : List Char :=
  if 32 ≤ c.toNat ∧ c.toNat ≤ 126 then [c]
  else if c.toNat < 65536 then escapeUnit c.toNat
  else escapeUnit (55296 + (c.toNat - 65536) / 1024) ++ escapeUnit (56320 + (c.toNat - 65536) % 1024)

-- `json.dumps` with the compact separators and sorted keys; outside ASCII only
-- strings have characters.
def asciiText (v : Json) : List Char := (text v).flatMap asciiChar

end Json
