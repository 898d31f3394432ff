import IntentEngineering.Library.PyText

-- The generic syntax of a URI reference, over any symbols some of which stand for
-- characters.
namespace Uri

structure Components (α : Type) where
  scheme : Option (List α)
  authority : Option (List α)
  path : List (List α)
  query : Option (List α)
  fragment : Option (List α)

section
variable {α : Type} (char : α → Option Char)

def isMark (marks : List Char) (x : α) : Bool := (char x).any fun c => decide (c ∈ marks)

def starts (mark : Char) (xs : List α) : Bool := xs.head?.any (isMark char [mark])

-- What stands before the first of the marks, and what stands from it on.
def before (marks : List Char) (xs : List α) : List α := xs.takeWhile fun x => !isMark char marks x
def from' (marks : List Char) (xs : List α) : List α := xs.dropWhile fun x => !isMark char marks x

def schemeMarks : List Char := [':','/','?','#']
def authorityMarks : List Char := ['/','?','#']
def pathMarks : List Char := ['?','#']

def hasScheme (xs : List α) : Bool := decide (before char schemeMarks xs ≠ []) && starts char ':' (from' char schemeMarks xs)

def hierarchical (xs : List α) : List α := if hasScheme char xs then (from' char schemeMarks xs).drop 1 else xs

def hasAuthority (xs : List α) : Bool := starts char '/' xs && starts char '/' (xs.drop 1)

def pathOn (xs : List α) : List α := if hasAuthority char xs then from' char authorityMarks (xs.drop 2) else xs

def components (xs : List α) : Components α :=
  let hier := hierarchical char xs
  let rest := pathOn char hier
  let tail := from' char pathMarks rest
  { scheme := if hasScheme char xs then some (before char schemeMarks xs) else none
    authority := if hasAuthority char hier then some (before char authorityMarks (hier.drop 2)) else none
    path := (before char pathMarks rest).splitOnP (isMark char ['/'])
    query := if starts char '?' tail then some (before char ['#'] (tail.drop 1)) else none
    fragment := if starts char '#' (from' char ['#'] tail) then some ((from' char ['#'] tail).drop 1) else none }

def isDot (segment : List α) : Bool := decide (segment.map char = [some '.'])
def isDotDot (segment : List α) : Bool := decide (segment.map char = [some '.',some '.'])

-- What has been put out, each segment with whether a slash stands before it.
def put (out : List (Bool × List α)) (segment : List α) : List (Bool × List α) :=
  if isDot char segment then out else if isDotDot char segment then out.dropLast else out ++ [(true,segment)]

-- The segments that follow a slash. A dot segment at the end leaves the slash before it.
def climb (out : List (Bool × List α)) : List (List α) → List (Bool × List α)
  | [] => out
  | segment :: later =>
    if later.isEmpty && (isDot char segment || isDotDot char segment) then put char out segment ++ [(true,[])]
    else climb (put char out segment) later

-- `remove_dot_segments`, on the segments between the slashes. The first of them has
-- no slash before it; that of an absolute path is empty.
def removeDots : List (List α) → List (Bool × List α)
  | [] => []
  | segment :: later =>
    if isDot char segment || isDotDot char segment then removeDots later else climb char [(false,segment)] later

end

section
variable {α : Type} (char : α → Option Char)

theorem before_from (marks : List Char) (xs : List α) : before char marks xs ++ from' char marks xs = xs :=
  List.takeWhile_append_dropWhile

theorem hierarchical_suffix (xs : List α) : hierarchical char xs <:+ xs := by
  unfold hierarchical
  split
  · exact (List.drop_suffix _ _).trans (List.dropWhile_suffix _)
  · exact List.suffix_rfl

theorem pathOn_suffix (xs : List α) : pathOn char xs <:+ xs := by
  unfold pathOn
  split
  · exact (List.dropWhile_suffix _).trans (List.drop_suffix _ _)
  · exact List.suffix_rfl

theorem starts_some {mark : Char} {xs : List α} (start : starts char mark xs = true) :
    ∃ x rest, xs = x :: rest ∧ char x = some mark := by
  cases xs with
  | nil => cases start
  | cons x rest =>
    simp only [starts,List.head?_cons,Option.any_some,isMark,Option.any_eq_true,decide_eq_true_eq,List.mem_singleton] at start
    obtain ⟨c,known,rfl⟩ := start
    exact ⟨x,rest,rfl,known⟩

end

namespace Components
variable {α β : Type}

def map (f : List α → List β) (c : Components α) : Components β :=
  ⟨c.scheme.map f,c.authority.map f,c.path.map f,c.query.map f,c.fragment.map f⟩

end Components

-- A symbol that stands for a character is written as that character, and any other
-- without a mark.
structure Faithful {α : Type} (char : α → Option Char) (write : α → List Char) : Prop where
  known : ∀ x c, char x = some c → write x = [c]
  plain : ∀ x, char x = none → ∀ c ∈ write x, c ∉ schemeMarks

theorem splitOnP_append {p : Char → Bool} {ys : List Char} (plain : ∀ c ∈ ys, p c = false) (zs : List Char) :
    (ys ++ zs).splitOnP p = (zs.splitOnP p).modifyHead (ys ++ ·) := by
  induction ys with
  | nil =>
    rw [List.nil_append]
    cases zs.splitOnP p <;> rfl
  | cons y ys ih =>
    rw [List.cons_append,List.splitOnP_cons_eq_if_modifyHead,if_neg (by simp [plain y (by simp)]),
      ih fun c member => plain c (by simp [member])]
    cases zs.splitOnP p <;> rfl

section Expansion
variable {α : Type} {char : α → Option Char} {write : α → List Char} (faithful : Faithful char write)
include faithful

theorem isMark_known {marks : List Char} {x : α} (mark : isMark char marks x = true) :
    ∃ c ∈ marks, char x = some c ∧ write x = [c] := by
  simp only [isMark,Option.any_eq_true,decide_eq_true_eq] at mark
  obtain ⟨c,known,member⟩ := mark
  exact ⟨c,member,known,faithful.known x c known⟩

theorem written_plain {marks : List Char} (sub : ∀ c ∈ marks, c ∈ schemeMarks) {x : α} (other : isMark char marks x = false) :
    ∀ c ∈ write x, isMark some marks c = false := by
  intro c member
  cases known : char x with
  | some d =>
    rw [faithful.known x d known,List.mem_singleton] at member
    simp only [isMark,known,Option.any_some] at other
    simpa [isMark,member] using other
  | none =>
    have apart := faithful.plain x known c member
    simp only [isMark,Option.any_some,decide_eq_false_iff_not]
    exact fun mark => apart (sub c mark)

-- The text before a mark is written from the symbols before it.
theorem span_write (marks : List Char) (sub : ∀ c ∈ marks, c ∈ schemeMarks) (xs : List α) :
    before some marks (xs.flatMap write) = (before char marks xs).flatMap write ∧
    from' some marks (xs.flatMap write) = (from' char marks xs).flatMap write := by
  induction xs with
  | nil => exact ⟨rfl,rfl⟩
  | cons x xs ih =>
    cases mark : isMark char marks x with
    | true =>
      obtain ⟨c,member,known,written⟩ := isMark_known faithful mark
      have here : isMark some marks c = true := by simpa [isMark] using member
      constructor
      · simp [before,mark,written,here]
      · simp [from',mark,written,here]
    | false =>
      have plain := written_plain faithful sub mark
      have all : ∀ c ∈ write x, (!isMark some marks c) = true := fun c member => by simp [plain c member]
      constructor
      · simp only [before,List.flatMap_cons,List.takeWhile_append_of_pos all,List.takeWhile_cons,mark,Bool.not_false,if_true]
        exact congrArg (write x ++ ·) ih.1
      · simp only [from',List.flatMap_cons,List.dropWhile_append_of_pos all,List.dropWhile_cons,mark,Bool.not_false,if_true]
        exact ih.2

-- Where the text goes on at a mark, so do the symbols.
theorem starts_from (marks : List Char) (mark : Char) (xs : List α) :
    starts some mark ((from' char marks xs).flatMap write) = starts char mark (from' char marks xs) ∧
    ((from' char marks xs).flatMap write).drop 1 = ((from' char marks xs).drop 1).flatMap write := by
  cases rest : from' char marks xs with
  | nil => exact ⟨rfl,rfl⟩
  | cons x later =>
    have stopped : isMark char marks x = true := by
      have kept := List.head?_dropWhile_not (fun y => !isMark char marks y) xs
      rw [show xs.dropWhile (fun y => !isMark char marks y) = x :: later from rest] at kept
      simpa using kept
    obtain ⟨c,_,known,written⟩ := isMark_known faithful stopped
    simp [starts,isMark,written,known]

theorem splitOnP_write (xs : List α) :
    (xs.flatMap write).splitOnP (isMark some ['/']) = (xs.splitOnP (isMark char ['/'])).map (List.flatMap write) := by
  induction xs with
  | nil => rfl
  | cons x xs ih =>
    rw [List.splitOnP_cons_eq_if_modifyHead]
    cases mark : isMark char ['/'] x with
    | true =>
      obtain ⟨c,member,_,written⟩ := isMark_known faithful mark
      have here : isMark some ['/'] c = true := by simpa [isMark] using member
      rw [List.flatMap_cons,written,List.cons_append,List.splitOnP_cons_eq_if_modifyHead,if_pos here,List.nil_append,ih]
      rfl
    | false =>
      have plain := written_plain faithful (by decide) mark
      rw [List.flatMap_cons,splitOnP_append plain,ih]
      cases xs.splitOnP (isMark char ['/']) <;> rfl

theorem hasAuthority_drop {xs : List α} (two : hasAuthority char xs = true) :
    hasAuthority some (xs.flatMap write) = true ∧ (xs.flatMap write).drop 2 = (xs.drop 2).flatMap write := by
  have slash {x : α} (mark : isMark char ['/'] x = true) : write x = ['/'] := by
    obtain ⟨c,member,_,written⟩ := isMark_known faithful mark
    rw [written,List.mem_singleton.mp member]
  match xs,two with
  | [],two => cases two
  | [_],two => simp [hasAuthority,starts] at two
  | x :: y :: rest,two =>
    simp only [hasAuthority,starts,List.head?_cons,Option.any_some,List.drop_succ_cons,List.drop_zero,Bool.and_eq_true] at two
    rw [List.flatMap_cons,List.flatMap_cons,slash two.1,slash two.2]
    exact ⟨rfl,rfl⟩

-- What can go wrong: a scheme written as nothing, or two slashes that stand together
-- only where something between them is written as nothing.
structure Steady (char : α → Option Char) (write : α → List Char) (xs : List α) : Prop where
  scheme : hasScheme char xs = true → (before char schemeMarks xs).flatMap write ≠ []
  authority : hasAuthority some ((hierarchical char xs).flatMap write) = true → hasAuthority char (hierarchical char xs) = true

theorem hasScheme_write {xs : List α} (kept : hasScheme char xs = true → (before char schemeMarks xs).flatMap write ≠ []) :
    hasScheme some (xs.flatMap write) = hasScheme char xs := by
  obtain ⟨first,second⟩ := span_write faithful schemeMarks (fun _ member => member) xs
  simp only [hasScheme,first,second,(starts_from faithful schemeMarks ':' xs).1] at kept ⊢
  cases colon : starts char ':' (from' char schemeMarks xs) with
  | false => simp
  | true =>
    simp only [colon,Bool.and_true,decide_eq_true_eq] at kept ⊢
    rw [decide_eq_decide]
    constructor
    · intro some' empty
      exact some' (by rw [empty]; rfl)
    · exact kept

theorem hierarchical_write {xs : List α} (kept : hasScheme char xs = true → (before char schemeMarks xs).flatMap write ≠ []) :
    hierarchical some (xs.flatMap write) = (hierarchical char xs).flatMap write := by
  simp only [hierarchical,hasScheme_write faithful kept,(span_write faithful schemeMarks (fun _ member => member) xs).2]
  split
  · exact (starts_from faithful schemeMarks ':' xs).2
  · rfl

theorem components_write {xs : List α} (steady : Steady char write xs) :
    components some (xs.flatMap write) = (components char xs).map (List.flatMap write) := by
  have hier := hierarchical_write faithful steady.scheme
  have authority : hasAuthority some ((hierarchical char xs).flatMap write) = hasAuthority char (hierarchical char xs) := by
    cases two : hasAuthority char (hierarchical char xs) with
    | true => exact (hasAuthority_drop faithful two).1
    | false =>
      cases written : hasAuthority some ((hierarchical char xs).flatMap write) with
      | false => rfl
      | true =>
        rw [steady.authority written] at two
        cases two
  have rest : pathOn some ((hierarchical char xs).flatMap write) = (pathOn char (hierarchical char xs)).flatMap write := by
    unfold pathOn
    rw [authority]
    split
    · rename_i two
      rw [(hasAuthority_drop faithful two).2]
      exact (span_write faithful authorityMarks (by decide) _).2
    · rfl
  obtain ⟨path,tail⟩ := span_write faithful pathMarks (by decide) (pathOn char (hierarchical char xs))
  obtain ⟨mark,later⟩ := starts_from faithful pathMarks '?' (pathOn char (hierarchical char xs))
  obtain ⟨obtained,hash⟩ := span_write faithful ['#'] (by decide)
    (from' char pathMarks (pathOn char (hierarchical char xs)))
  obtain ⟨mark',later'⟩ := starts_from faithful ['#'] '#' (from' char pathMarks (pathOn char (hierarchical char xs)))
  simp only [components,Components.map,hier,authority,rest,path,tail,mark,later,hash,mark',later',hasScheme_write faithful steady.scheme]
  congr 1
  · rw [(span_write faithful schemeMarks (fun _ member => member) xs).1]
    split <;> rfl
  · split
    · rename_i two
      rw [(hasAuthority_drop faithful two).2,(span_write faithful authorityMarks (by decide) _).1]
      rfl
    · rfl
  · exact splitOnP_write faithful _
  · rw [(span_write faithful ['#'] (by decide) _).1]
    split <;> rfl
  · split <;> rfl

-- Dots are taken away alike where no segment becomes one.
structure SameDots (char : α → Option Char) (write : α → List Char) (segment : List α) : Prop where
  dot : isDot some (segment.flatMap write) = isDot char segment
  dotDot : isDotDot some (segment.flatMap write) = isDotDot char segment

end Expansion

section Dots
variable {α : Type} {char : α → Option Char} {write : α → List Char}

def writePiece (write : α → List Char) (piece : Bool × List α) : Bool × List Char := (piece.1,piece.2.flatMap write)

theorem put_write {segment : List α} (same : SameDots char write segment) (out : List (Bool × List α)) :
    put some (out.map (writePiece write)) (segment.flatMap write) = (put char out segment).map (writePiece write) := by
  unfold put
  rw [same.dot,same.dotDot]
  split
  · rfl
  · split
    · rw [List.map_dropLast]
    · rw [List.map_append]
      rfl

theorem climb_write {segments : List (List α)} (same : ∀ segment ∈ segments, SameDots char write segment) (out : List (Bool × List α)) :
    climb some (out.map (writePiece write)) (segments.map (List.flatMap write)) = (climb char out segments).map (writePiece write) := by
  induction segments generalizing out with
  | nil => rfl
  | cons segment later ih =>
    have here := same segment (by simp)
    have rest := ih fun other member => same other (by simp [member])
    simp only [List.map_cons,climb,put_write here,here.dot,here.dotDot,List.isEmpty_map]
    split
    · rw [List.map_append]
      rfl
    · exact rest _

theorem removeDots_write {segments : List (List α)} (same : ∀ segment ∈ segments, SameDots char write segment) :
    removeDots some (segments.map (List.flatMap write)) = (removeDots char segments).map (writePiece write) := by
  induction segments with
  | nil => rfl
  | cons segment later ih =>
    have here := same segment (by simp)
    have rest := fun other member => same other (List.mem_cons_of_mem segment member)
    simp only [List.map_cons,removeDots,here.dot,here.dotDot]
    split
    · exact ih rest
    · exact climb_write rest [(false,segment)]

end Dots

end Uri
