import IntentEngineering.Library.JsonLines

open Json PyText LineText JsonLines

theorem Json.strictDialect_known : strictDialect = strictDialect ∨ strictDialect = plainDialect := .inl rfl

theorem Json.plainDialect_known : plainDialect = strictDialect ∨ plainDialect = plainDialect := .inr rfl

-- A ledger of JSON lines is read line by line into a state. Readers differ in
-- the dialect they take, in whether a line keeps its ending, in what they make
-- of a blank line, and in what they do with a record.
structure LedgerReader (ε σ : Type) where
  start : σ
  dialect : Dialect
  known : dialect = strictDialect ∨ dialect = plainDialect
  keepends : Bool
  skipsBlank : Bool
  encoding : ε
  blank : Nat → ε
  malformed : Nat → ε
  record : σ → Nat → List Char → Json → Except ε σ
  objects : ∀ s n shown v s', record s n shown v = .ok s' → ∃ ms, v = .obj ms

namespace LedgerReader

variable {ε σ : Type} (r : LedgerReader ε σ)

def shown (line : Line Char) : List Char := if r.keepends then line.text else line.body

def line (s : σ) (n : Nat) (line : Line Char) : Except ε σ :=
  if isBlank line.body then (if r.skipsBlank then .ok s else .error (r.blank n))
  else match loads r.dialect (r.shown line) with
    | none => .error (r.malformed n)
    | some v => r.record s n (r.shown line) v

def readFrom : Nat → σ → List (Line Char) → Except ε σ
  | _, s, [] => .ok s
  | n, s, line :: rest =>
    match r.line s n line with
    | .error e => .error e
    | .ok s' => readFrom (n + 1) s' rest

def read : Option Utf8.Bytes → Except ε σ
  | none => .ok r.start
  | some content =>
    match Utf8.decode content with
    | none => .error r.encoding
    | some cs => r.readFrom 1 r.start (lines lineRule cs)

def append (content : Option Utf8.Bytes) (v : Json) : Option Utf8.Bytes :=
  some (content.getD [] ++ Utf8.encode (frame v))

-- The unterminated end of the content.
def pending (content : Option Utf8.Bytes) : List Char :=
  (LineText.scan lineRule ((Utf8.decode (content.getD [])).getD [])).pending

-- What a record and the content before it must be like for the record to be
-- read as it was written.
def Legible (v : Json) : Prop := Unbroken v ∧ (r.dialect.constants = true ∨ allFinite v = true)

instance (v : Json) : Decidable (r.Legible v) :=
  inferInstanceAs (Decidable (Unbroken v ∧ (r.dialect.constants = true ∨ allFinite v = true)))

@[simp] theorem read_none : r.read none = .ok r.start := rfl

theorem readFrom_append (n : Nat) (s : σ) (xs ys : List (Line Char)) :
    r.readFrom n s (xs ++ ys) = match r.readFrom n s xs with
      | .error e => .error e
      | .ok s' => r.readFrom (n + xs.length) s' ys := by
  induction xs generalizing n s with
  | nil => rfl
  | cons x xs ih =>
    simp only [List.cons_append,readFrom,List.length_cons]
    cases r.line s n x with
    | error e => rfl
    | ok s' => simp only [ih,Nat.add_assoc,Nat.add_comm 1]

theorem readFrom_torn {first s : σ} {l : Line Char} (before : r.readFrom n first xs = .ok s)
    (failed : r.line s (n + xs.length) l = .error e) (rest : List (Line Char)) :
    r.readFrom n first (xs ++ l :: rest) = .error e := by
  rw [readFrom_append,before]
  simp only [readFrom,failed]

theorem line_refused {l : Line Char} (solid : isBlank l.body = false) (body : loads r.dialect l.body = none)
    (text : loads r.dialect l.text = none) (s : σ) (n : Nat) : r.line s n l = .error (r.malformed n) := by
  have refused : loads r.dialect (r.shown l) = none := by
    unfold shown
    split <;> assumption
  simp [LedgerReader.line,solid,refused]

theorem line_read {l : Line Char} (solid : isBlank l.body = false) (body : loads r.dialect l.body = some v)
    (text : loads r.dialect l.text = some v) (s : σ) (n : Nat) : r.line s n l = r.record s n (r.shown l) v := by
  have found : loads r.dialect (r.shown l) = some v := by
    unfold shown
    split <;> assumption
  simp [LedgerReader.line,solid,found]

-- An accepted content splits into its terminated lines and a tail that is blank
-- or holds one record.
theorem readFrom_split {s : σ} (cs : List Char) (got : r.readFrom 1 r.start (lines lineRule cs) = .ok s) :
    ∃ s₀, r.readFrom 1 r.start (LineText.scan lineRule cs).complete = .ok s₀ ∧
      Tail r.dialect (LineText.scan lineRule cs).pending ∧
      (isBlank (LineText.scan lineRule cs).pending = true → s₀ = s) := by
  rw [lines_split,readFrom_append] at got
  cases before : r.readFrom 1 r.start (LineText.scan lineRule cs).complete with
  | error e => rw [before] at got; cases got
  | ok s₀ =>
    rw [before] at got
    refine ⟨s₀,rfl,?_⟩
    by_cases empty : (LineText.scan lineRule cs).pending = []
    · rw [if_pos empty] at got
      rw [empty]
      exact ⟨.inl rfl,fun _ => by simpa [readFrom] using got⟩
    · rw [if_neg empty] at got
      simp only [readFrom,LedgerReader.line] at got
      by_cases blank : isBlank (LineText.scan lineRule cs).pending = true
      · refine ⟨.inl blank,fun _ => ?_⟩
        rw [if_pos blank] at got
        cases skips : r.skipsBlank <;> simp_all
      · refine ⟨.inr ?_,fun same => absurd same blank⟩
        rw [if_neg blank] at got
        have same : r.shown ⟨(LineText.scan lineRule cs).pending,[]⟩ = (LineText.scan lineRule cs).pending := by
          simp [shown,Line.text]
        rw [same] at got
        cases found : loads r.dialect (LineText.scan lineRule cs).pending with
        | none => simp [found] at got
        | some v =>
          simp only [found] at got
          split at got
          · cases got
          · rename_i s' taken
            obtain ⟨ms,rfl⟩ := r.objects _ _ _ _ _ taken
            exact ⟨ms,rfl⟩

theorem blank_pending (blank : Blank w) : isBlank w = true := by
  apply List.all_eq_true.mpr
  intro c member
  have white := blank c member
  simp only [isWs,Bool.or_eq_true,decide_eq_true_eq] at white
  rcases white with ((rfl | rfl) | rfl) | rfl <;> decide

theorem read_decoded {s : σ} (got : r.read content = .ok s) :
    ∃ cs, Utf8.decode (content.getD []) = some cs ∧ r.readFrom 1 r.start (lines lineRule cs) = .ok s := by
  cases content with
  | none => exact ⟨[],rfl,got⟩
  | some bytes =>
    simp only [LedgerReader.read] at got
    cases decoded : Utf8.decode bytes with
    | none => simp [decoded] at got
    | some cs => exact ⟨cs,decoded,by simpa [decoded] using got⟩

-- What the records keep, the reader keeps.
theorem readFrom_keeps {invariant : σ → Prop} {s : σ} {ls : List (Line Char)}
    (each : ∀ s n shown v s', invariant s → r.record s n shown v = .ok s' → invariant s') (held : invariant s)
    (got : r.readFrom n s ls = .ok s') : invariant s' := by
  induction ls generalizing n s with
  | nil =>
    cases got
    exact held
  | cons first rest ih =>
    simp only [readFrom] at got
    split at got
    · cases got
    · rename_i next taken
      refine ih ?_ got
      unfold line at taken
      split at taken
      · split at taken
        · cases taken
          exact held
        · cases taken
      · split at taken
        · cases taken
        · exact each _ _ _ _ _ held taken

theorem read_keeps {invariant : σ → Prop} {s : σ}
    (each : ∀ s n shown v s', invariant s → r.record s n shown v = .ok s' → invariant s') (start : invariant r.start)
    (got : r.read content = .ok s) : invariant s := by
  obtain ⟨cs,_,lines⟩ := r.read_decoded got
  exact r.readFrom_keeps each start lines

-- A last record without its line feed is read like any other.
theorem read_open {s : σ} (got : r.read content = .ok s) (object : ∃ ms, v = .obj ms) (formed : WellFormed v)
    (closed : pending content = []) (legible : r.Legible v) :
    pending (some (content.getD [] ++ Utf8.encode (text v))) = text v ∧
      ∃ n shown, r.read (some (content.getD [] ++ Utf8.encode (text v))) = r.record s n shown v := by
  obtain ⟨ms,rfl⟩ := object
  obtain ⟨cs,decoded,accepted⟩ := r.read_decoded got
  have closed' : (LineText.scan lineRule cs).pending = [] := by simpa [pending,decoded] using closed
  obtain ⟨s₀,before,_,same⟩ := r.readFrom_split cs accepted
  have state := same (by rw [closed']; rfl)
  subst state
  have plain := (plain_text _).mpr legible.1
  obtain ⟨more,shape⟩ := text_obj ms
  have read := loads_text r.dialect formed legible.2 (show Blank [] by decide)
  rw [List.nil_append] at read
  have split : lines lineRule (cs ++ text (.obj ms)) = (LineText.scan lineRule cs).complete ++ [⟨text (.obj ms),[]⟩] := by
    rw [shape] at plain ⊢
    simpa [closed'] using lines_open cs plain
  have tail : (LineText.scan lineRule (cs ++ text (.obj ms))).pending = text (.obj ms) := by
    rw [shape] at plain ⊢
    rw [scan_append,scanFrom_plain _ plain,closed']
    rfl
  refine ⟨by simp [pending,Utf8.decode_append decoded,tail],1 + (LineText.scan lineRule cs).complete.length,text (.obj ms),?_⟩
  have shown : r.shown ⟨text (.obj ms),[]⟩ = text (.obj ms) := by simp [LedgerReader.shown,Line.text]
  have last := r.line_read (l := ⟨text (.obj ms),[]⟩) (by rw [shape]; exact solid_text [] more) read (by simpa [Line.text] using read)
    s₀ (1 + (LineText.scan lineRule cs).complete.length)
  simp only [LedgerReader.read,Utf8.decode_append decoded,split,readFrom_append,before,readFrom,last,shown]
  split <;> simp_all

theorem append_decoded (read : Utf8.decode (content.getD []) = some cs) (v : Json) :
    r.read (append content v) = r.readFrom 1 r.start (lines lineRule (cs ++ frame v)) := by
  simp only [LedgerReader.read,append,Utf8.decode_append read]

-- Read back: the state of the old content takes the record. Otherwise the new
-- content is refused as a whole.
theorem read_append {s : σ} (got : r.read content = .ok s) (object : ∃ ms, v = .obj ms) (formed : WellFormed v)
    (clear : Blank (pending content)) (legible : r.Legible v) :
    ∃ n shown, r.read (append content v) = r.record s n shown v := by
  obtain ⟨ms,rfl⟩ := object
  obtain ⟨cs,decoded,accepted⟩ := r.read_decoded got
  have clear' : Blank (LineText.scan lineRule cs).pending := by simpa [pending,decoded] using clear
  obtain ⟨s₀,before,_,same⟩ := r.readFrom_split cs accepted
  obtain ⟨l,split,body,text,solid⟩ := append_whole cs [] r.dialect formed legible.2 legible.1 clear'
  rw [List.append_nil,show lines lineRule ([] : List Char) = [] from rfl] at split
  refine ⟨1 + (LineText.scan lineRule cs).complete.length,r.shown l,?_⟩
  rw [r.append_decoded decoded,split,readFrom_append,before,←same (blank_pending clear')]
  simp only [readFrom,r.line_read solid body text]
  split <;> simp_all

-- Nothing appended later makes up for a record that was not read.
theorem read_append_torn {s : σ} (got : r.read content = .ok s) (object : ∃ ms, v = .obj ms) (formed : WellFormed v)
    (bad : ¬ (Blank (pending content) ∧ r.Legible v)) (later : List Char) :
    ∃ n, r.read (some (content.getD [] ++ Utf8.encode (frame v ++ later))) = .error (r.malformed n) := by
  obtain ⟨ms,rfl⟩ := object
  obtain ⟨cs,decoded,accepted⟩ := r.read_decoded got
  obtain ⟨s₀,before,tail,_⟩ := r.readFrom_split cs accepted
  obtain ⟨l,rest,split,body,text,solid⟩ := append_torn cs later r.dialect r.known formed tail
    (by simpa [pending,decoded,Legible] using bad)
  refine ⟨1 + (LineText.scan lineRule cs).complete.length,?_⟩
  simp only [LedgerReader.read,Utf8.decode_append decoded,split]
  exact r.readFrom_torn before (r.line_refused solid body text _ _) rest

theorem pending_append {s : σ} (got : r.read content = .ok s) (v : Json) : pending (append content v) = [] := by
  obtain ⟨cs,decoded,_⟩ := r.read_decoded got
  simp [pending,append,Utf8.decode_append decoded,scan_frame]

@[simp] theorem read_getD (content : Option Utf8.Bytes) : r.read (some (content.getD [])) = r.read content := by
  cases content with
  | none => rfl
  | some content => rfl

-- Several records appended one behind the other.
def appendAll (content : Option Utf8.Bytes) (vs : List Json) : Option Utf8.Bytes :=
  some (content.getD [] ++ Utf8.encode (vs.flatMap frame))

@[simp] theorem read_appendAll_nil (content : Option Utf8.Bytes) : r.read (appendAll content []) = r.read content := by
  simp [appendAll,Utf8.encode]

theorem appendAll_cons (content : Option Utf8.Bytes) (v : Json) (vs : List Json) :
    appendAll content (v :: vs) = appendAll (append content v) vs := by
  simp [appendAll,append,Utf8.encode_append]

section Growth

variable {η τ : Type} (dump : η → Json) (view : σ → τ) (add : τ → η → τ)

-- Contents that arise from an absent file by appending records, each to a
-- content that reads and whose state takes the record.
inductive Grown : Option Utf8.Bytes → List η → Prop
  | empty : Grown none []
  | append (earlier : Grown content entries) (readable : r.read content = .ok s)
      (takes : ∀ n shown, ∃ s', r.record s n shown (dump entry) = .ok s' ∧ view s' = add (view s) entry) :
      Grown (append content (dump entry)) (entries ++ [entry])

-- A grown content reads exactly when every record in it is legible, and then
-- it reads as those records in their order.
theorem grown_read (objects : ∀ e, ∃ ms, dump e = .obj ms) (formed : ∀ e, WellFormed (dump e))
    (grown : r.Grown dump view add content entries) :
    pending content = [] ∧ ((∃ s, r.read content = .ok s) ↔ ∀ e ∈ entries, r.Legible (dump e)) ∧
      ∀ s, r.read content = .ok s → view s = entries.foldl add (view r.start) := by
  induction grown with
  | empty =>
    refine ⟨rfl,by simp [LedgerReader.read],?_⟩
    intro s got
    cases got
    rfl
  | @append content entries s entry earlier readable takes ih =>
    obtain ⟨settled,legible,same⟩ := ih
    have before := legible.mp ⟨s,readable⟩
    have closed : Blank (pending content) := by simp [settled,Blank]
    refine ⟨r.pending_append readable _,?_⟩
    by_cases good : r.Legible (dump entry)
    · obtain ⟨n,shown,read⟩ := r.read_append readable (objects entry) (formed entry) closed good
      obtain ⟨s',taken,viewed⟩ := takes n shown
      rw [read,taken]
      have all : ∀ e ∈ entries ++ [entry], r.Legible (dump e) := by
        intro e member
        rcases List.mem_append.mp member with old | new
        · exact before e old
        · rw [List.mem_singleton.mp new]
          exact good
      constructor
      · simpa using all
      · intro s'' got
        cases got
        simp [viewed,same s readable]
    · obtain ⟨n,refused⟩ := r.read_append_torn readable (objects entry) (formed entry) (fun both => good both.2) []
      rw [List.append_nil] at refused
      rw [append,refused]
      have spoiled : ¬ ∀ e ∈ entries ++ [entry], r.Legible (dump e) := by
        intro all
        exact good (all entry (by simp))
      constructor
      · simpa using spoiled
      · intro s got
        cases got

variable {α φ : Type}

-- A sequence of calls, each on the content the one before it left. A call that
-- is refused ends the sequence; an accepted one appends one record or none.
def calls (call : Option Utf8.Bytes → α → Except φ (Option Utf8.Bytes × Option η)) :
    Option Utf8.Bytes → List α → Except φ (Option Utf8.Bytes × List η)
  | content, [] => .ok (content,[])
  | content, request :: rest =>
    match call content request with
    | .error e => .error e
    | .ok (content',entry) =>
      match calls call content' rest with
      | .error e => .error e
      | .ok (last,entries) => .ok (last,entry.toList ++ entries)

-- An accepted call leaves the content alone or appends a record that the state
-- read from the content takes.
def Appends (call : Option Utf8.Bytes → α → Except φ (Option Utf8.Bytes × Option η)) : Prop :=
  ∀ content request content' entry, call content request = .ok (content',entry) →
    (entry = none ∧ content' = content) ∨
      ∃ e s, entry = some e ∧ r.read content = .ok s ∧ content' = append content (dump e) ∧
        ∀ n shown, ∃ s', r.record s n shown (dump e) = .ok s' ∧ view s' = add (view s) e

theorem grown_calls {call : Option Utf8.Bytes → α → Except φ (Option Utf8.Bytes × Option η)}
    (appends : r.Appends dump view add call) (earlier : r.Grown dump view add content entries)
    (ran : calls call content requests = .ok (last,more)) : r.Grown dump view add last (entries ++ more) := by
  induction requests generalizing content entries last more with
  | nil =>
    cases ran
    simpa using earlier
  | cons request rest ih =>
    simp only [calls] at ran
    cases accepted : call content request with
    | error e => simp [accepted] at ran
    | ok found =>
      obtain ⟨content',entry⟩ := found
      simp only [accepted] at ran
      cases later : calls call content' rest with
      | error e => simp [later] at ran
      | ok found =>
        obtain ⟨last',entries'⟩ := found
        simp only [later,Except.ok.injEq,Prod.mk.injEq] at ran
        obtain ⟨rfl,rfl⟩ := ran
        rcases appends _ _ _ _ accepted with ⟨rfl,rfl⟩ | ⟨e,s,rfl,readable,rfl,takes⟩
        · exact ih earlier later
        · have grown := ih (.append earlier readable takes) later
          simpa using grown

-- Written by accepted calls from an absent file, a ledger yields its records in
-- order exactly when each of them is legible.
theorem calls_read {call : Option Utf8.Bytes → α → Except φ (Option Utf8.Bytes × Option η)}
    (appends : r.Appends dump view add call) (objects : ∀ e, ∃ ms, dump e = .obj ms) (formed : ∀ e, WellFormed (dump e))
    (ran : calls call none requests = .ok (content,entries)) :
    (∃ s, r.read content = .ok s ∧ view s = entries.foldl add (view r.start)) ↔ ∀ e ∈ entries, r.Legible (dump e) := by
  have grown := r.grown_calls dump view add appends .empty ran
  rw [List.nil_append] at grown
  obtain ⟨_,legible,same⟩ := r.grown_read dump view add objects formed grown
  rw [←legible]
  exact ⟨fun ⟨s,read,_⟩ => ⟨s,read⟩,fun ⟨s,read⟩ => ⟨s,read,same s read⟩⟩

end Growth

-- The same for one append to any accepted content.
theorem read_append_iff {s : σ} (got : r.read content = .ok s) (object : ∃ ms, v = .obj ms) (formed : WellFormed v)
    (view : σ → τ) (next : τ) (takes : ∀ n shown, ∃ s', r.record s n shown v = .ok s' ∧ view s' = next) :
    (∃ s', r.read (append content v) = .ok s' ∧ view s' = next) ↔ Blank (pending content) ∧ r.Legible v := by
  constructor
  · rintro ⟨s',read,_⟩
    by_contra bad
    obtain ⟨n,refused⟩ := r.read_append_torn got object formed bad []
    rw [List.append_nil] at refused
    rw [append,refused] at read
    cases read
  · rintro ⟨clear,legible⟩
    obtain ⟨n,shown,read⟩ := r.read_append got object formed clear legible
    obtain ⟨s',taken,viewed⟩ := takes n shown
    exact ⟨s',by rw [read,taken],viewed⟩

-- Where blank lines are refused an accepted content has no blank tail.
theorem pending_nil {s : σ} (refuses : r.skipsBlank = false) (got : r.read content = .ok s) (blank : Blank (pending content)) :
    pending content = [] := by
  obtain ⟨cs,decoded,accepted⟩ := r.read_decoded got
  have same : pending content = (LineText.scan lineRule cs).pending := by simp [pending,decoded]
  rw [same] at blank ⊢
  by_contra present
  rw [lines_split,readFrom_append,if_neg present] at accepted
  split at accepted
  · cases accepted
  · simp [readFrom,LedgerReader.line,blank_pending blank,refuses] at accepted

end LedgerReader
