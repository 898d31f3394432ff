import IntentEngineering.Library.JsonChars
import IntentEngineering.Library.PyText
import IntentEngineering.Library.Utf8

namespace JsonLines
open Json PyText LineText

-- One record as it is appended to a ledger.
def frame (v : Json) : List Char := text v ++ ['\n']

-- No string of the record holds a next-line, line or paragraph separator. The
-- other line boundaries are controls, which the writer escapes.
def Unbroken (v : Json) : Prop := ∀ s ∈ strings v, ∀ c ∈ s.toList, c.toNat ∉ [0x85,0x2028,0x2029]

instance (v : Json) : Decidable (Unbroken v) :=
  inferInstanceAs (Decidable (∀ s ∈ strings v, ∀ c ∈ s.toList, c.toNat ∉ [0x85,0x2028,0x2029]))

def UnbrokenText (s : String) : Prop := ∀ c ∈ s.toList, c.toNat ∉ [0x85,0x2028,0x2029]

instance (s : String) : Decidable (UnbrokenText s) :=
  inferInstanceAs (Decidable (∀ c ∈ s.toList, c.toNat ∉ [0x85,0x2028,0x2029]))

theorem unbroken_strings (v : Json) : Unbroken v ↔ ∀ s ∈ strings v, UnbrokenText s := .rfl

theorem unbroken_ascii (ascii : ∀ c ∈ s.toList, c.toNat < 128) : UnbrokenText s := by
  intro c member
  have low := ascii c member
  simp only [List.mem_cons,List.not_mem_nil,or_false]
  omega

theorem plain_text (v : Json) : Plain lineRule (text v) ↔ Unbroken v := by
  have same (c : Char) : (lineRule.isBreak c = true → c.toNat < 32) ↔ c.toNat ∉ [0x85,0x2028,0x2029] := by
    rw [isBreak_iff]
    simp only [List.mem_cons,List.not_mem_nil,or_false]
    omega
  unfold Plain Unbroken
  rw [text_avoids lineRule.isBreak break_odd v]
  simp only [same]

theorem frame_break : lineRule.isBreak '\n' = true := by decide

-- Nothing is pending after a line boundary.
theorem scan_settled (cs : List Char) : (LineText.scan lineRule cs).afterCr = true → (LineText.scan lineRule cs).pending = [] := by
  induction cs using List.reverseRecOn with
  | nil => simp [LineText.scan,scanFrom]
  | append_singleton cs c ih =>
    rw [scan_append]
    simp only [scanFrom,List.foldl_cons,List.foldl_nil,step]
    split
    · simp
    · split <;> simp

theorem scan_frame (xs : List Char) (v : Json) : (LineText.scan lineRule (xs ++ frame v)).pending = [] := by
  have settled := scan_settled (xs ++ text v)
  rw [frame,←List.append_assoc,scan_append]
  simp only [scanFrom,List.foldl_cons,List.foldl_nil,step,frame_break]
  split
  · rename_i joined
    exact settled joined.1
  · rfl

theorem loads_framed (d : Dialect) (formed : WellFormed (.obj ms)) (known : d.constants = true ∨ allFinite (.obj ms) = true)
    (blank : Blank w) (after : Blank w') : loads d (w ++ (text (.obj ms) ++ w')) = some (.obj ms) := by
  rw [loads_reads _ blank (text_starts _) (reads_text d _ formed known) (fun number => by cases number)]
  simp [skipWs_all after]

-- A control or a character beyond ASCII cannot begin a value.
theorem loads_odd (d : Dialect) (blank : Blank w) (solid : isWs c = false) (odd : c.toNat < 32 ∨ 127 ≤ c.toNat) (rest : List Char) :
    loads d (w ++ c :: rest) = none := by
  have other (e : Char) (printable : 32 ≤ e.toNat ∧ e.toNat < 127) : c ≠ e := by
    rintro rfl
    omega
  have constant (e : Char) (printable : 32 ≤ e.toNat ∧ e.toNat < 127) (word : List Char) (v : Json) :
      scanConstant (e :: word) v (c :: rest) = none := by
    simp [scanConstant,List.cons_prefix_cons,(other e printable).symm]
  have noNumber : JsonNumber.scan (c :: rest) = none := by
    cases got : JsonNumber.scan (c :: rest) with
    | none => rfl
    | some found =>
      obtain ⟨t,after⟩ := found
      obtain ⟨split,shaped⟩ := JsonNumber.scan_sound got
      have head : c ∈ t.text := by
        cases shape : t.text with
        | nil => exact absurd shape (by simp [JsonNumber.Token.text,shaped.nonempty])
        | cons e more =>
          rw [shape,List.cons_append] at split
          rw [(List.cons.inj split).1]
          exact List.mem_cons_self
      have printable := token_printable shaped c head
      unfold Printable at printable
      omega
  have noScalar : scanScalar d (c :: rest) = none := by
    have special : scanSpecial d (c :: rest) = none := by
      unfold scanSpecial
      split
      · simp [nanWord,infinityWord,constant 'N' (by decide),constant 'I' (by decide),constant '-' (by decide)]
      · rfl
    simp [scanScalar,special,noNumber,nullWord,trueWord,falseWord,constant 'n' (by decide),constant 't' (by decide),
      constant 'f' (by decide)]
  have noValue (fuel : Nat) : value d fuel (c :: rest) = none := by
    cases fuel with
    | zero => rfl
    | succ fuel =>
      simp [value,other '"' (by decide),other '[' (by decide),other '{' (by decide),noScalar]
  rw [loads,skipWs_blank blank,skipWs_solid solid,noValue]
  rfl

theorem space_odd (space : isSpace c = true) (solid : isWs c = false) : c.toNat < 32 ∨ 127 ≤ c.toNat := by
  have notSpace : c.toNat ≠ 32 := by
    intro same
    have spaced : c = ' ' := Char.toNat_inj.mp same
    subst spaced
    cases solid
  simp only [isSpace,Bool.or_eq_true,decide_eq_true_eq,List.mem_cons,List.not_mem_nil,or_false] at space
  omega

-- What may stand unterminated before a new record: white space of either kind,
-- or an earlier record whose line feed is missing.
def Tail (d : Dialect) (pending : List Char) : Prop :=
  isBlank pending = true ∨ ∃ ms, loads d pending = some (.obj ms)

theorem not_blank_split {p : List Char} (h : ¬ Blank p) : ∃ w c rest, p = w ++ c :: rest ∧ Blank w ∧ isWs c = false := by
  obtain ⟨w,split,blank⟩ := skipWs_split p
  cases shape : skipWs p with
  | nil =>
    rw [shape,List.append_nil] at split
    exact absurd (split ▸ blank) h
  | cons c rest =>
    refine ⟨w,c,rest,by rw [←shape]; exact split,blank,?_⟩
    have head := List.head_dropWhile_not isWs (l := p) (w := by rw [show p.dropWhile isWs = c :: rest from shape]; simp)
    simpa [show p.dropWhile isWs = c :: rest from shape] using head

-- Behind anything but JSON white space a record is not read, whole or in part.
theorem loads_behind (d : Dialect) (tail : Tail d pending) (solid : ¬ Blank pending) (opened : ∃ more, p = '{' :: more) (more : List Char) :
    loads d (pending ++ (p ++ more)) = none := by
  obtain ⟨rest,rfl⟩ := opened
  rcases tail with blank | ⟨ms,read⟩
  · obtain ⟨w,c,after,rfl,clear,odd⟩ := not_blank_split solid
    have space : isSpace c = true := List.all_eq_true.mp blank c (by simp)
    rw [List.append_assoc,List.cons_append]
    exact loads_odd d clear odd (space_odd space odd) _
  · exact loads_extra read rfl

theorem itemsText_end (vs : List Json) : ∃ start, itemsText vs = start ++ [']'] := by
  induction vs with
  | nil => exact ⟨[],rfl⟩
  | cons v vs ih =>
    obtain ⟨start,shape⟩ := ih
    exact ⟨',' :: (text v ++ start),by simp [itemsText,shape]⟩

theorem membersText_end (ms : Members) : ∃ start, membersText ms = start ++ ['}'] := by
  induction ms with
  | nil => exact ⟨[],rfl⟩
  | cons m ms ih =>
    obtain ⟨k,v⟩ := m
    obtain ⟨start,shape⟩ := ih
    exact ⟨',' :: (stringText k ++ ':' :: (text v ++ start)),by simp [membersText,shape]⟩

theorem text_end (ms : Members) : ∃ start, text (.obj ms) = start ++ ['}'] := by
  cases ms with
  | nil => exact ⟨['{'],rfl⟩
  | cons m ms =>
    obtain ⟨k,v⟩ := m
    obtain ⟨start,shape⟩ := membersText_end ms
    exact ⟨'{' :: (stringText k ++ ':' :: (text v ++ start)),by simp [text,shape]⟩

theorem lines_unbroken (xs ys : List Char) (unbroken : Unbroken (.obj ms)) :
    lines lineRule (xs ++ (frame (.obj ms) ++ ys)) = (LineText.scan lineRule xs).complete ++
      ⟨(LineText.scan lineRule xs).pending ++ text (.obj ms),['\n']⟩ :: lines lineRule ys := by
  obtain ⟨more,shape⟩ := text_obj ms
  have plain := (plain_text _).mpr unbroken
  rw [shape] at plain
  have piece := lines_piece xs ys plain frame_break (by decide)
  rw [frame,shape]
  simpa using piece

-- A separator inside the record ends its first line before the record does.
theorem lines_broken (xs ys : List Char) (broken : ¬ Unbroken (.obj ms)) :
    ∃ p s q rest, text (.obj ms) = p ++ s :: q ∧ (∃ more, p = '{' :: more) ∧ q ≠ [] ∧
      lines lineRule (xs ++ (frame (.obj ms) ++ ys)) = (LineText.scan lineRule xs).complete ++
        ⟨(LineText.scan lineRule xs).pending ++ p,[s]⟩ :: rest := by
  obtain ⟨more,opened⟩ := text_obj ms
  rw [←plain_text] at broken
  cases found : (text (.obj ms)).find? lineRule.isBreak with
  | none => exact absurd (fun c member => by simpa using List.find?_eq_none.mp found c member) broken
  | some s =>
    obtain ⟨hit,p,q,split,before⟩ := List.find?_eq_some_iff_append.mp found
    have plain : Plain lineRule p := fun c member => by simpa using before c member
    obtain ⟨start,closed⟩ := text_end ms
    have notEnd : q ≠ [] := by
      rintro rfl
      have last := (split.symm.trans closed)
      have brace : [s] = ['}'] := (List.append_inj' last rfl).2
      rw [(List.cons.inj brace).1] at hit
      exact absurd hit (by decide)
    have notCr : s ≠ '\r' := by
      rintro rfl
      rcases text_drawn _ _ (List.mem_of_find?_eq_some found) with printable | ⟨high,_⟩
      · exact absurd printable.1 (by decide)
      · exact absurd high (by decide)
    obtain ⟨rest,shape⟩ : ∃ rest, p = '{' :: rest := by
      cases p with
      | nil =>
        rw [opened] at split
        rw [←(List.cons.inj split).1] at hit
        exact absurd hit (by decide)
      | cons e rest =>
        rw [opened] at split
        exact ⟨rest,by rw [(List.cons.inj split).1]⟩
    refine ⟨p,s,q,lines lineRule (q ++ '\n' :: ys),split,⟨rest,shape⟩,notEnd,?_⟩
    rw [shape] at plain
    have piece := lines_piece xs (q ++ '\n' :: ys) plain hit notCr
    rw [frame,split,shape]
    simpa using piece

-- Only the strict reader refuses a number, and only one that is not finite.
theorem refused_float (choice : d = strictDialect ∨ d = plainDialect) (refused : ¬ (d.constants = true ∨ allFinite v = true)) :
    d = strictDialect ∧ allFinite v = false := by
  obtain ⟨constants,infinite⟩ := not_or.mp refused
  rcases choice with strict | rfl
  · exact ⟨strict,by simpa using infinite⟩
  · exact absurd rfl constants

theorem solid_text (pending more : List Char) : isBlank (pending ++ '{' :: more) = false := by
  simp [isBlank_append,isBlank_cons,show isSpace '{' = false by decide]

-- After an append the ledger reads as before with the record behind it, or its
-- first new line is refused.
theorem append_whole (xs ys : List Char) (d : Dialect) (formed : WellFormed (.obj ms))
    (known : d.constants = true ∨ allFinite (.obj ms) = true) (unbroken : Unbroken (.obj ms))
    (blank : Blank (LineText.scan lineRule xs).pending) :
    ∃ line, lines lineRule (xs ++ (frame (.obj ms) ++ ys)) = (LineText.scan lineRule xs).complete ++ line :: lines lineRule ys ∧
      loads d line.body = some (.obj ms) ∧ loads d line.text = some (.obj ms) ∧ isBlank line.body = false := by
  obtain ⟨more,opened⟩ := text_obj ms
  refine ⟨_,lines_unbroken xs ys unbroken,?_,?_,by rw [opened]; exact solid_text _ _⟩
  · exact loads_text d formed known blank
  · simpa [Line.text] using loads_framed d formed known blank (show Blank ['\n'] by decide)

theorem append_torn (xs ys : List Char) (d : Dialect) (choice : d = strictDialect ∨ d = plainDialect) (formed : WellFormed (.obj ms))
    (tail : Tail d (LineText.scan lineRule xs).pending)
    (bad : ¬ (Blank (LineText.scan lineRule xs).pending ∧ Unbroken (.obj ms) ∧
      (d.constants = true ∨ allFinite (.obj ms) = true))) :
    ∃ line rest, lines lineRule (xs ++ (frame (.obj ms) ++ ys)) = (LineText.scan lineRule xs).complete ++ line :: rest ∧
      loads d line.body = none ∧ loads d line.text = none ∧ isBlank line.body = false := by
  obtain ⟨more,opened⟩ := text_obj ms
  by_cases unbroken : Unbroken (.obj ms)
  · refine ⟨_,_,lines_unbroken xs ys unbroken,?_,?_,by rw [opened]; exact solid_text _ _⟩
    · by_cases blank : Blank (LineText.scan lineRule xs).pending
      · obtain ⟨strict,infinite⟩ := refused_float choice (fun known => bad ⟨blank,unbroken,known⟩)
        simpa [strict] using loads_infinite formed infinite blank []
      · simpa using loads_behind d tail blank ⟨more,opened⟩ []
    · by_cases blank : Blank (LineText.scan lineRule xs).pending
      · obtain ⟨strict,infinite⟩ := refused_float choice (fun known => bad ⟨blank,unbroken,known⟩)
        simpa [strict,Line.text] using loads_infinite formed infinite blank ['\n']
      · simpa [Line.text] using loads_behind d tail blank ⟨more,opened⟩ ['\n']
  · obtain ⟨p,s,q,rest,split,⟨first,head⟩,open',split'⟩ := lines_broken xs ys unbroken
    have split'' : text (.obj ms) = (p ++ [s]) ++ q := by simpa using split
    refine ⟨_,rest,split',?_,?_,by rw [head]; exact solid_text _ _⟩
    · by_cases blank : Blank (LineText.scan lineRule xs).pending
      · exact loads_cut d choice formed split (by simp) (by simp [head]) blank
      · simpa using loads_behind d tail blank ⟨first,head⟩ []
    · by_cases blank : Blank (LineText.scan lineRule xs).pending
      · simpa [Line.text] using loads_cut d choice formed split'' open' (by simp) blank
      · simpa [Line.text] using loads_behind d tail blank ⟨first,head⟩ [s]

end JsonLines
