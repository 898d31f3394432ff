namespace LineText

-- Universal line splitting over an arbitrary alphabet. A carriage return and
-- the line feed right after it are one boundary; every other boundary is one
-- symbol. `other` holds the boundaries that are neither of the two.
structure Rule (α : Type) where
  cr : α
  lf : α
  other : α → Bool
  distinct : lf ≠ cr

structure Line (α : Type) where
  body : List α
  ending : List α
deriving DecidableEq

-- `pending` is the text after the last boundary. `afterCr` records that the
-- last symbol was a carriage return, whose line may still take a line feed.
structure Scan (α : Type) where
  complete : List (Line α)
  pending : List α
  afterCr : Bool

variable {α : Type} [DecidableEq α] {rule : Rule α}

def Rule.isBreak (rule : Rule α) (c : α) : Bool :=
  decide (c = rule.cr) || decide (c = rule.lf) || rule.other c

def Line.text (line : Line α) : List α := line.body ++ line.ending

def extendLast (c : α) : List (Line α) → List (Line α)
  | [] => []
  | [line] => [⟨line.body,line.ending ++ [c]⟩]
  | line :: next :: rest => line :: extendLast c (next :: rest)

def step (rule : Rule α) (scan : Scan α) (c : α) : Scan α :=
  if scan.afterCr = true ∧ c = rule.lf then ⟨extendLast c scan.complete,scan.pending,false⟩
  else if rule.isBreak c then ⟨scan.complete ++ [⟨scan.pending,[c]⟩],[],decide (c = rule.cr)⟩
  else ⟨scan.complete,scan.pending ++ [c],false⟩

def scanFrom (rule : Rule α) (start : Scan α) (cs : List α) : Scan α := cs.foldl (step rule) start

def scan (rule : Rule α) (cs : List α) : Scan α := scanFrom rule ⟨[],[],false⟩ cs

-- A boundary at the very end opens no further line.
def Scan.lines (scan : Scan α) : List (Line α) :=
  match scan.pending with
  | [] => scan.complete
  | rest => scan.complete ++ [⟨rest,[]⟩]

def lines (rule : Rule α) (cs : List α) : List (Line α) := (scan rule cs).lines

def Plain (rule : Rule α) (cs : List α) : Prop := ∀ c ∈ cs, rule.isBreak c = false

instance : Decidable (Plain rule cs) := inferInstanceAs (Decidable (∀ c ∈ cs, _))

theorem isBreak_lf : rule.isBreak rule.lf = true := by simp [Rule.isBreak]

theorem isBreak_cr : rule.isBreak rule.cr = true := by simp [Rule.isBreak]

theorem scanFrom_append (start : Scan α) (xs ys : List α) :
    scanFrom rule start (xs ++ ys) = scanFrom rule (scanFrom rule start xs) ys := by
  simp [scanFrom]

theorem scan_append (xs ys : List α) : scan rule (xs ++ ys) = scanFrom rule (scan rule xs) ys :=
  scanFrom_append _ xs ys

theorem step_plain (start : Scan α) (h : rule.isBreak c = false) :
    step rule start c = ⟨start.complete,start.pending ++ [c],false⟩ := by
  have notLf : c ≠ rule.lf := by
    rintro rfl
    simp [isBreak_lf] at h
  simp [step,h,notLf]

theorem step_break (rule : Rule α) (start : Scan α) (fresh : start.afterCr = false) (h : rule.isBreak s = true) :
    step rule start s = ⟨start.complete ++ [⟨start.pending,[s]⟩],[],decide (s = rule.cr)⟩ := by
  simp [step,fresh,h]

theorem scanFrom_plain (start : Scan α) (plain : Plain rule (c :: body)) :
    scanFrom rule start (c :: body) = ⟨start.complete,start.pending ++ c :: body,false⟩ := by
  induction body generalizing start c with
  | nil => simp [scanFrom,step_plain start (plain c (by simp))]
  | cons d body ih =>
    have here := step_plain start (plain c (by simp))
    have later : Plain rule (d :: body) := fun x member => plain x (by simp [member])
    have rest := ih (step rule start c) later
    simp only [scanFrom,List.foldl_cons] at rest ⊢
    rw [rest,here]
    simp

omit [DecidableEq α] in
theorem extendLast_append (c : α) (xs : List (Line α)) (nonempty : ys ≠ []) :
    extendLast c (xs ++ ys) = xs ++ extendLast c ys := by
  induction xs with
  | nil => rfl
  | cons x xs ih =>
    cases shape : xs ++ ys with
    | nil => simp_all
    | cons line rest =>
      have unfolded : extendLast c (x :: line :: rest) = x :: extendLast c (line :: rest) := rfl
      rw [List.cons_append,shape,unfolded,←shape,ih,List.cons_append]

-- Lines that are already complete play no part in what follows them, except
-- that the last one may wait for its line feed.
theorem scanFrom_frame (rule : Rule α) (before : List (Line α)) (start : Scan α) (cs : List α)
    (waiting : start.afterCr = true → start.complete ≠ []) :
    scanFrom rule ⟨before ++ start.complete,start.pending,start.afterCr⟩ cs =
      let after := scanFrom rule start cs
      ⟨before ++ after.complete,after.pending,after.afterCr⟩ := by
  induction cs generalizing start with
  | nil => rfl
  | cons c cs ih =>
    have stepped : step rule ⟨before ++ start.complete,start.pending,start.afterCr⟩ c =
        ⟨before ++ (step rule start c).complete,(step rule start c).pending,(step rule start c).afterCr⟩ ∧
        ((step rule start c).afterCr = true → (step rule start c).complete ≠ []) := by
      unfold step
      split
      · rename_i joined
        exact ⟨by rw [extendLast_append _ _ (waiting joined.1)],by simp⟩
      · rename_i apart
        simp only at apart
        simp only
        split <;> simp
    simp only [scanFrom,List.foldl_cons] at ih ⊢
    rw [stepped.1,ih _ stepped.2]

-- A piece without boundaries, closed by one symbol other than a carriage
-- return, becomes one line together with the text it was appended to.
theorem lines_piece (xs ys : List α) (plain : Plain rule (c :: body)) (h : rule.isBreak s = true) (notCr : s ≠ rule.cr) :
    lines rule (xs ++ c :: body ++ s :: ys) =
      (scan rule xs).complete ++ ⟨(scan rule xs).pending ++ c :: body,[s]⟩ :: lines rule ys := by
  have opened := scanFrom_plain (scan rule xs) plain
  have closed := step_break rule ⟨(scan rule xs).complete,(scan rule xs).pending ++ c :: body,false⟩ rfl h
  have rest := scanFrom_frame rule ((scan rule xs).complete ++ [⟨(scan rule xs).pending ++ c :: body,[s]⟩])
    ⟨[],[],false⟩ ys (by simp)
  unfold lines
  rw [scan_append,scan_append,opened]
  have unfolded : scanFrom rule ⟨(scan rule xs).complete,(scan rule xs).pending ++ c :: body,false⟩ (s :: ys) =
      scanFrom rule (step rule ⟨(scan rule xs).complete,(scan rule xs).pending ++ c :: body,false⟩ s) ys := rfl
  simp only [List.append_nil] at rest
  rw [unfolded,closed,decide_eq_false notCr,rest]
  simp only [Scan.lines,scan]
  split <;> simp_all

theorem lines_open (xs : List α) (plain : Plain rule (c :: body)) :
    lines rule (xs ++ c :: body) =
      (scan rule xs).complete ++ [⟨(scan rule xs).pending ++ c :: body,[]⟩] := by
  unfold lines
  rw [scan_append,scanFrom_plain (scan rule xs) plain]
  simp [Scan.lines]

theorem lines_split (cs : List α) :
    lines rule cs = (scan rule cs).complete ++
      (if (scan rule cs).pending = [] then [] else [⟨(scan rule cs).pending,[]⟩]) := by
  unfold lines Scan.lines
  split <;> simp_all

end LineText
