import IntentEngineering.Capture.Base
import IntentEngineering.Context.Provider
import IntentEngineering.Library.CharText
import IntentEngineering.Library.FloatText
import IntentEngineering.Library.LineLayout
import Mathlib.Data.Prod.Lex
import Mathlib.Order.Lex

open LineText PyText LineLayout CharText

-- The report of the open cases.
namespace DriftReport

section Patterns

-- The letter that `re.IGNORECASE` takes a character for. Four characters
-- outside ASCII are taken for ASCII letters.
def foldCase (c : Char) : Char :=
  if 65 ≤ c.toNat ∧ c.toNat ≤ 90 then Char.ofNat (c.toNat + 32)
  else if c.toNat = 0x130 ∨ c.toNat = 0x131 then 'i'
  else if c.toNat = 0x17f then 's'
  else if c.toNat = 0x212a then 'k'
  else c

def startsFold (word : List Char) (cs : List Char) : Bool := decide (word <+: cs.map foldCase)

-- `_CREDENTIAL_PATTERN` at one place.
def credentialAt (cs : List Char) : Bool :=
  startsFold "github_pat_".toList cs ||
    (match cs.map foldCase with
      | 'g' :: 'h' :: kind :: '_' :: _ => decide (kind ∈ ['p','o','u','s','r'])
      | _ => false) ||
    (startsFold "bearer".toList cs && ((cs.drop 6).head?.map isSpace).getD false) ||
    (startsFold "authorization".toList cs && (((cs.drop 13).dropWhile isSpace).head?.map fun c => decide (c = ':' ∨ c = '=')).getD false)

def hasCredential (cs : List Char) : Bool := cs.tails.any credentialAt

def isAsciiLetter (c : Char) : Bool := decide (65 ≤ c.toNat ∧ c.toNat ≤ 90) || decide (97 ≤ c.toNat ∧ c.toNat ≤ 122)

def isAsciiAlphanumeric (c : Char) : Bool := isAsciiLetter c || Decimal.isDigit c

-- `\S` in front.
def solidHead (cs : List Char) : Bool := (cs.head?.map fun c => !isSpace c).getD false

-- `_LOCAL_PATH_PATTERN` at one place, behind the character `before`.
def localPathAt (before : Option Char) (cs : List Char) : Bool :=
  let outside := !(before.any fun c => isAsciiAlphanumeric c || decide (c = ':' ∨ c = '/'))
  let fresh := !(before.any isAsciiAlphanumeric)
  startsFold "file:///".toList cs ||
    match cs with
    | '/' :: '/' :: rest => outside && solidHead rest
    | '/' :: _ => outside
    | '\\' :: '\\' :: _ => !(before.any fun c => decide (c = '\\'))
    | drive :: ':' :: slash :: rest =>
      fresh && isAsciiLetter drive && decide (slash = '\\' ∨ slash = '/') && solidHead rest &&
        !(rest.head?.any fun c => decide (c = '\\' ∨ c = '/'))
    | _ => false

def hasLocalPath : Option Char → List Char → Bool
  | _, [] => false
  | before, c :: rest => localPathAt before (c :: rest) || hasLocalPath (some c) rest

end Patterns

-- The members of `_MARKDOWN_META`.
def markdownMeta (c : Char) : Bool := decide (c ∈ ['\\','*','\x7b','\x7d','[',']','(',')','#','+','!','|','_','~'])

-- `html.escape(value, quote=True)`
def escapeHtml (value : List Char) : List Char :=
  replace (Char.ofNat 39) "&#x27;".toList <| replace '"' "&quot;".toList <| replace '>' "&gt;".toList <|
    replace '<' "&lt;".toList <| replace '&' "&amp;".toList value

section Values
variable (table : Categories)

def safeScalar (value : String) : List Char :=
  let normalized := table.flatten value.toList
  if hasCredential normalized then "[redacted-sensitive]".toList
  else if hasLocalPath none normalized then "[redacted-local-path]".toList
  else backslashed markdownMeta (replace backtick "&#96;".toList (escapeHtml normalized))

def safeValues (values : List String) : List (List Char) :=
  ((values.map fun value => String.ofList (safeScalar table value)).dedup.insertionSort (· ≤ ·)).map String.toList

end Values

def recommendedAction : ReconciliationCaseType → ResolutionAction
  | .codeLag => .updateImplementation
  | .requirementLag => .updateRequirement
  | .intentLag => .updateIntent
  | .testLag => .updateTests
  | .docLag => .updateDocumentation
  | .undocumentedCode => .backfillDesignDecision
  | .orphanRequirement => .updateImplementation
  | .conflictingSources => .preserveDisagreement
  | .ambiguousDivergence => .preserveDisagreement
  | .possibleIntentChange => .updateIntent

-- `format(value, ".6g")` of a finite number.
def sixDigits (x : Binary64.Finite) : List Char :=
  let sign := if x.negative then ['-'] else []
  if x.magnitude = 0 then sign ++ ['0'] else
  let last := Int.log 10 x.magnitude - 5
  let digits := Decimal.natText (Binary64.halfEven (x.magnitude / 10 ^ last))
  let point := digits.length + last
  let significant := (digits.reverse.dropWhile (· = '0')).reverse
  if -4 < point ∧ point ≤ 6 then
    if point ≤ 0 then sign ++ '0' :: '.' :: (List.replicate point.natAbs '0' ++ significant)
    else if (significant.length : ℤ) ≤ point then sign ++ (significant ++ List.replicate (point.toNat - significant.length) '0')
    else sign ++ (significant.take point.toNat ++ '.' :: significant.drop point.toNat)
  else
    let exponent := (point - 1).natAbs
    sign ++ (significant.take 1 ++ ((if significant.length = 1 then [] else '.' :: significant.drop 1) ++
      'e' :: (if point - 1 < 0 then '-' else '+') :: (if exponent < 10 then Decimal.padded 2 exponent else Decimal.natText exponent)))

def confidenceText (confidence : Confidence) : List Char :=
  match confidence.1 with
  | .finite x => sixDigits x
  | .infinite negative => if negative then ['-','i','n','f'] else ['i','n','f']
  | .nan => ['n','a','n']

section Report
variable (table : Categories) (host : Host)

def timestamp (value : DateTime) : Except Raised (List Char) := (value.astimezone host).map fun shifted => shifted.1.text

-- The sides of a case compare by label, claim, time, authors and references.
-- A naive and an aware time of one label and claim do not compare.
def sideSortKey (side : EvidenceSide) : String ×ₗ String ×ₗ Int ×ₗ List String ×ₗ List String :=
  toLex (side.label,toLex (side.claim,toLex (side.observedAt.instant,
    toLex (side.authors.dedup.insertionSort (· ≤ ·),side.evidenceRefs.dedup.insertionSort (· ≤ ·)))))

def comparable (a b : EvidenceSide) : Bool :=
  !(a.label == b.label && a.claim == b.claim) || a.observedAt.offset.isSome == b.observedAt.offset.isSome

def sortedSides (sides : List EvidenceSide) : Except Raised (List EvidenceSide) :=
  if sides.all fun a => sides.all fun b => comparable a b then
    .ok (sides.insertionSort fun a b => sideSortKey a ≤ sideSortKey b)
  else .error .typeError

def renderSide (side : EvidenceSide) : Except Raised (List Layout) :=
  (timestamp host side.observedAt).map fun observed =>
    [[.text "### Evidence: ".toList,.text (safeScalar table side.label)],
      [.text "- Claim: ".toList,.text (safeScalar table side.claim)],
      .text "- Authors: ".toList :: codes (safeValues table side.authors),
      [.text "- Observed: ".toList,.code observed],
      [.text "- Confidence: ".toList,.code (confidenceText side.confidence)],
      .text "- Evidence refs: ".toList :: codes (safeValues table side.evidenceRefs)]

def headLines (case : ReconciliationCase) : List Layout :=
  let affectedRefs := safeValues table case.affectedRefs
  [[.text ['#','#',' '],.text (safeScalar table case.caseType.spelling),.text [' ','—',' '],.code (safeScalar table case.id)],
    [.text "- Subject: ".toList,.text (safeScalar table case.subjectRef)],
    [.text "- Status: ".toList,.code (safeScalar table case.status.spelling)],
    [.text "- Recommended action: ".toList,.code (recommendedAction case.caseType).spelling.toList],
    .text "- Affected refs: ".toList :: if affectedRefs = [] then [.text "none".toList] else codes affectedRefs] ++
  if case.impact = "" then [] else [[.text "- Impact: ".toList,.text (safeScalar table case.impact)]]

def renderCase (case : ReconciliationCase) : Except Raised (List Layout) := do
  let ordered ← sortedSides case.evidenceSides
  let sides ← ordered.mapM (renderSide table host)
  return headLines table case ++ sides.flatMap fun lines => [] :: lines

-- `(case.case_type.value, case.id)`
def caseSortKey (case : ReconciliationCase) : String ×ₗ String := toLex (case.caseType.spelling,case.id)

def openCases (cases : List ReconciliationCase) : List ReconciliationCase :=
  (cases.filter fun case => ContextProvider.isNonterminal case.status).insertionSort fun a b => caseSortKey a ≤ caseSortKey b

def emptyReport : List (List Layout) :=
  [[[.text "# Intent Engineering drift report".toList]],[[.text "_No authorized open reconciliation cases._".toList]]]

def sections (cases : List ReconciliationCase) : Except Raised (List (List Layout)) :=
  match openCases cases with
  | [] => .ok emptyReport
  | ordered => (ordered.mapM (renderCase table host)).map fun rendered => [[.text "# Intent Engineering drift report".toList]] :: rendered

def renderDriftReport (cases : List ReconciliationCase) : Except Raised (List Char) := (sections table host cases).map document

end Report

section Inert
variable {table : Categories}

-- Text that ends neither a line nor a code span.
def Inert (cs : List Char) : Prop := Plain lineRule cs ∧ backtick ∉ cs

instance (cs : List Char) : Decidable (Inert cs) := inferInstanceAs (Decidable (_ ∧ _))

theorem escapeHtml_plain {value : List Char} (plain : Plain lineRule value) : Plain lineRule (escapeHtml value) := by
  have entities : ∀ text ∈ ["&#x27;".toList,"&quot;".toList,"&gt;".toList,"&lt;".toList,"&amp;".toList], Plain lineRule text := by decide
  unfold escapeHtml
  apply replace_plain _ (entities _ (by simp))
  apply replace_plain _ (entities _ (by simp))
  apply replace_plain _ (entities _ (by simp))
  apply replace_plain _ (entities _ (by simp))
  exact replace_plain plain (entities _ (by simp))

theorem safeScalar_inert (value : String) : Inert (safeScalar table value) := by
  unfold safeScalar
  dsimp only
  split
  · decide
  · split
    · decide
    · constructor
      · exact backslashed_plain (replace_plain (escapeHtml_plain (flatten_plain _ _)) (by decide))
      · rw [mem_backslashed (by decide),mem_replace]
        rintro (⟨_,other⟩ | ⟨_,entity⟩)
        · exact other rfl
        · exact absurd entity (by decide)

theorem safeValues_inert {values : List String} (member : shown ∈ safeValues table values) : Inert shown := by
  obtain ⟨text,sorted,rfl⟩ := List.mem_map.mp member
  have listed := List.mem_dedup.mp ((List.perm_insertionSort _ _).mem_iff.mp sorted)
  obtain ⟨value,_,rfl⟩ := List.mem_map.mp listed
  rw [String.toList_ofList]
  exact safeScalar_inert value

-- The characters of numbers and of times.
def Printed (c : Char) : Prop := Decimal.isDigit c = true ∨ c ∈ ['-','T',':','.','Z','+','e']

theorem printed_inert {cs : List Char} (each : ∀ c ∈ cs, Printed c) : Inert cs := by
  have apart (c : Char) (digit : Decimal.isDigit c = true) : lineRule.isBreak c = false ∧ c ≠ backtick := by
    simp only [Decimal.isDigit,Bool.and_eq_true,decide_eq_true_eq] at digit
    constructor
    · by_contra broken
      have code := break_odd c (by simpa using broken)
      omega
    · rintro rfl
      exact absurd digit.2 (by decide)
  have marks : ∀ c ∈ ['-','T',':','.','Z','+','e'], lineRule.isBreak c = false ∧ c ≠ backtick := by decide
  have both (c : Char) (member : c ∈ cs) : lineRule.isBreak c = false ∧ c ≠ backtick := by
    rcases each c member with digit | mark
    · exact apart c digit
    · exact marks c mark
  exact ⟨fun c member => (both c member).1,fun member => (both _ member).2 rfl⟩

theorem padded_printed (width n : Nat) : ∀ c ∈ Decimal.padded width n, Printed c := fun c member => .inl (Decimal.padded_digits width n c member)

theorem natText_printed (n : Nat) : ∀ c ∈ Decimal.natText n, Printed c := fun c member => .inl (Decimal.natText_digits n c member)

theorem printed_append {xs ys : List Char} (first : ∀ c ∈ xs, Printed c) (second : ∀ c ∈ ys, Printed c) : ∀ c ∈ xs ++ ys, Printed c := by
  intro c member
  rcases List.mem_append.mp member with left | right
  · exact first c left
  · exact second c right

theorem printed_cons {c : Char} (mark : c ∈ ['-','T',':','.','Z','+','e']) {cs : List Char} (rest : ∀ c ∈ cs, Printed c) :
    ∀ d ∈ c :: cs, Printed d := by
  intro d member
  rcases List.mem_cons.mp member with rfl | later
  · exact .inr mark
  · exact rest d later

theorem printed_nil : ∀ c ∈ ([] : List Char), Printed c := by simp

theorem text_printed (t : DateTime) : ∀ c ∈ t.text, Printed c := by
  have fraction : ∀ c ∈ DateTime.fractionText t.microsecond, Printed c := by
    unfold DateTime.fractionText
    split
    · exact printed_nil
    · exact printed_cons (by decide) (padded_printed _ _)
  have zone : ∀ c ∈ DateTime.zoneText t.offset, Printed c := by
    unfold DateTime.zoneText
    split
    · exact printed_nil
    · split
      · exact printed_cons (by decide) printed_nil
      · refine printed_cons ?_ (printed_append (padded_printed _ _) (printed_cons (by decide) (padded_printed _ _)))
        split <;> decide
  have date : ∀ c ∈ DateTime.dateText t.year t.month t.day, Printed c :=
    printed_append (padded_printed _ _) (printed_cons (by decide) (printed_append (padded_printed _ _)
      (printed_cons (by decide) (padded_printed _ _))))
  have clock : ∀ c ∈ DateTime.clockText t.hour t.minute t.second, Printed c :=
    printed_append (padded_printed _ _) (printed_cons (by decide) (printed_append (padded_printed _ _)
      (printed_cons (by decide) (padded_printed _ _))))
  exact printed_append date (printed_cons (by decide) (printed_append clock (printed_append fraction zone)))

theorem sixDigits_printed (x : Binary64.Finite) : ∀ c ∈ sixDigits x, Printed c := by
  have sign : ∀ c ∈ (if x.negative then ['-'] else []), Printed c := by
    split
    · exact printed_cons (by decide) printed_nil
    · exact printed_nil
  have zero : ∀ c ∈ ['0'], Printed c := by
    intro c member
    rw [List.mem_singleton.mp member]
    exact .inl (by decide)
  have zeros (n : Nat) : ∀ c ∈ List.replicate n '0', Printed c := by
    intro c member
    rw [List.eq_of_mem_replicate member]
    exact .inl (by decide)
  have significant (n : Nat) : ∀ c ∈ ((Decimal.natText n).reverse.dropWhile (· = '0')).reverse, Printed c := by
    intro c member
    have inside := (List.dropWhile_suffix _).subset (List.mem_reverse.mp member)
    exact natText_printed n c (List.mem_reverse.mp inside)
  have part {cs ds : List Char} (each : ∀ c ∈ cs, Printed c) (inside : ds ⊆ cs) : ∀ c ∈ ds, Printed c :=
    fun c member => each c (inside member)
  unfold sixDigits
  dsimp only
  split
  · exact printed_append sign zero
  · split
    · split
      · exact printed_append sign (printed_append zero (printed_cons (by decide) (printed_append (zeros _) (significant _))))
      · split
        · exact printed_append sign (printed_append (significant _) (zeros _))
        · exact printed_append sign (printed_append (part (significant _) (List.take_subset _ _))
            (printed_cons (by decide) (part (significant _) (List.drop_subset _ _))))
    · refine printed_append sign (printed_append (part (significant _) (List.take_subset _ _)) (printed_append ?_ ?_))
      · split
        · exact printed_nil
        · exact printed_cons (by decide) (part (significant _) (List.drop_subset _ _))
      · refine printed_cons (by decide) (printed_cons ?_ ?_)
        · split <;> decide
        · split
          · exact padded_printed _ _
          · exact natText_printed _

theorem confidence_inert (confidence : Confidence) : Inert (confidenceText confidence) := by
  obtain ⟨value,valid⟩ := confidence
  cases value with
  | finite x => exact printed_inert (sixDigits_printed x)
  | infinite negative => cases valid
  | nan => cases valid

theorem timestamp_inert {host : Host} (printed : timestamp host value = .ok shown) : Inert shown := by
  unfold timestamp at printed
  cases shifted : value.astimezone host with
  | error e =>
    rw [shifted] at printed
    cases printed
  | ok t =>
    rw [shifted] at printed
    cases printed
    exact printed_inert (text_printed t.1)

-- A line whose segments all are inert.
def InertLine (line : Layout) : Prop := ∀ segment ∈ line, Plain lineRule segment.contents ∧ segment.Closed

theorem inert_nil : InertLine [] := by
  intro segment member
  cases member

theorem inert_text {cs : List Char} {rest : Layout} (plain : Plain lineRule cs) (others : InertLine rest) : InertLine (.text cs :: rest) := by
  intro segment member
  rcases List.mem_cons.mp member with rfl | later
  · exact ⟨plain,trivial⟩
  · exact others segment later

theorem inert_code {cs : List Char} {rest : Layout} (inert : Inert cs) (others : InertLine rest) : InertLine (.code cs :: rest) := by
  intro segment member
  rcases List.mem_cons.mp member with rfl | later
  · exact inert
  · exact others segment later

theorem inert_codes {values : List String} : InertLine (codes (safeValues table values)) := by
  intro segment member
  rcases mem_codes member with ⟨part,inside,rfl⟩ | rfl
  · exact safeValues_inert inside
  · exact ⟨by decide,trivial⟩

theorem inert_scalar {value : String} {rest : Layout} (others : InertLine rest) : InertLine (.text (safeScalar table value) :: rest) :=
  inert_text (safeScalar_inert value).1 others

theorem action_inert (caseType : ReconciliationCaseType) : Inert (recommendedAction caseType).spelling.toList := by
  cases caseType <;> decide

theorem headLines_inert (case : ReconciliationCase) : ∀ line ∈ headLines table case, InertLine line := by
  intro line member
  simp only [headLines,List.mem_append,List.mem_cons,List.not_mem_nil,or_false] at member
  rcases member with (rfl | rfl | rfl | rfl | rfl) | impact
  · exact inert_text (by decide) (inert_scalar (inert_text (by decide) (inert_code (safeScalar_inert _) inert_nil)))
  · exact inert_text (by decide) (inert_scalar inert_nil)
  · exact inert_text (by decide) (inert_code (safeScalar_inert _) inert_nil)
  · exact inert_text (by decide) (inert_code (action_inert _) inert_nil)
  · apply inert_text (by decide)
    split
    · exact inert_text (by decide) inert_nil
    · exact inert_codes
  · split at impact
    · cases impact
    · rw [List.mem_singleton.mp impact]
      exact inert_text (by decide) (inert_scalar inert_nil)

theorem renderSide_inert {host : Host} {side : EvidenceSide} {lines : List Layout} (rendered : renderSide table host side = .ok lines) :
    ∀ line ∈ lines, InertLine line := by
  unfold renderSide at rendered
  cases observed : timestamp host side.observedAt with
  | error e =>
    rw [observed] at rendered
    cases rendered
  | ok shown =>
    rw [observed] at rendered
    cases rendered
    intro line member
    simp only [List.mem_cons,List.not_mem_nil,or_false] at member
    rcases member with rfl | rfl | rfl | rfl | rfl | rfl
    · exact inert_text (by decide) (inert_scalar inert_nil)
    · exact inert_text (by decide) (inert_scalar inert_nil)
    · exact inert_text (by decide) inert_codes
    · exact inert_text (by decide) (inert_code (timestamp_inert observed) inert_nil)
    · exact inert_text (by decide) (inert_code (confidence_inert _) inert_nil)
    · exact inert_text (by decide) inert_codes

end Inert

section Shape
variable {table : Categories}

-- What there is to show: of each open case, in the report's order, whether it
-- has an impact, and how many sides.
def presence (cases : List ReconciliationCase) : List (Bool × Nat) :=
  (openCases cases).map fun case => (decide (case.impact ≠ ""),case.evidenceSides.length)

def headShape (impact : Bool) : List Opening :=
  [.opens ['#','#',' '],.opens "- Subject: ".toList,.opens ("- Status: ".toList ++ [backtick]),
    .opens ("- Recommended action: ".toList ++ [backtick]),.opens "- Affected refs: ".toList] ++
  if impact then [.opens "- Impact: ".toList] else []

def sideShape : List Opening :=
  [.blank,.opens "### Evidence: ".toList,.opens "- Claim: ".toList,.opens "- Authors: ".toList,
    .opens ("- Observed: ".toList ++ [backtick]),.opens ("- Confidence: ".toList ++ [backtick]),.opens "- Evidence refs: ".toList]

def caseShape (present : Bool × Nat) : List Opening := headShape present.1 ++ (List.replicate present.2 sideShape).flatten

def shapes (present : List (Bool × Nat)) : List (List Opening) :=
  if present = [] then [[.opens "# Intent Engineering drift report".toList],[.opens "_No authorized open reconciliation cases._".toList]]
  else [.opens "# Intent Engineering drift report".toList] :: present.map caseShape

-- `opening` for each line of a section.
abbrev FitLines (shape : List Opening) (section' : List Layout) : Prop :=
  List.Forall₂ (fun opening (line : Layout) => opening.Fits line.chars) shape section'

theorem fits_span {start cs : List Char} {rest : Layout} :
    (Opening.opens (start ++ [backtick])).Fits (Layout.chars (.text start :: .code cs :: rest)) := by
  refine ⟨cs ++ [backtick] ++ Layout.chars rest,?_⟩
  simp [Layout.chars,Segment.chars]

theorem headLines_fit (case : ReconciliationCase) : FitLines (headShape (decide (case.impact ≠ ""))) (headLines table case) := by
  apply forall₂_append
  · exact .cons fits_text (.cons fits_text (.cons fits_span (.cons fits_span (.cons fits_text .nil))))
  · by_cases impact : case.impact = ""
    · simp [impact]
    · simp only [impact,ne_eq,not_false_eq_true,decide_true,if_true,if_false]
      exact .cons fits_text .nil

theorem renderSide_fit {host : Host} {side : EvidenceSide} {lines : List Layout} (rendered : renderSide table host side = .ok lines) :
    FitLines sideShape ([] :: lines) := by
  unfold renderSide at rendered
  cases observed : timestamp host side.observedAt with
  | error e =>
    rw [observed] at rendered
    cases rendered
  | ok shown =>
    rw [observed] at rendered
    cases rendered
    exact .cons rfl (.cons fits_text (.cons fits_text (.cons fits_text (.cons fits_span (.cons fits_span (.cons fits_text .nil))))))

theorem mapM_ok {f : α → Except ε β} (ran : xs.mapM f = .ok ys) : List.Forall₂ (fun x y => f x = .ok y) xs ys := by
  induction xs generalizing ys with
  | nil =>
    cases ran
    exact .nil
  | cons x xs ih =>
    rw [List.mapM_cons] at ran
    cases first : f x with
    | error e =>
      rw [first] at ran
      cases ran
    | ok y =>
      rw [first] at ran
      cases rest : xs.mapM f with
      | error e =>
        rw [rest] at ran
        cases ran
      | ok zs =>
        rw [rest] at ran
        cases ran
        exact .cons first (ih rest)

theorem sortedSides_length (sorted : sortedSides sides = .ok ordered) : ordered.length = sides.length := by
  unfold sortedSides at sorted
  split at sorted
  · cases sorted
    exact (List.perm_insertionSort _ _).length_eq
  · cases sorted

theorem bind_ok {x : Except ε α} {f : α → Except ε β} (ran : x >>= f = .ok b) : ∃ a, x = .ok a ∧ f a = .ok b := by
  cases x with
  | error e => cases ran
  | ok a => exact ⟨a,rfl,ran⟩

-- A rendered case: its head lines, then an empty line and the lines of each side.
theorem renderCase_ok {host : Host} {lines : List Layout} (rendered : renderCase table host case = .ok lines) :
    ∃ ordered sides, ordered.length = case.evidenceSides.length ∧
      List.Forall₂ (fun side shown => renderSide table host side = .ok shown) ordered sides ∧
      lines = headLines table case ++ sides.flatMap fun shown => [] :: shown := by
  obtain ⟨ordered,sorted,rest⟩ := bind_ok rendered
  obtain ⟨sides,ran,done⟩ := bind_ok rest
  cases done
  exact ⟨ordered,sides,sortedSides_length sorted,mapM_ok ran,rfl⟩

theorem sides_fit {host : Host} {ordered : List EvidenceSide} {sides : List (List Layout)}
    (each : List.Forall₂ (fun side shown => renderSide table host side = .ok shown) ordered sides) :
    FitLines (List.replicate ordered.length sideShape).flatten (sides.flatMap fun shown => [] :: shown) := by
  induction each with
  | nil => exact .nil
  | cons first _ ih => exact forall₂_append (renderSide_fit first) ih

theorem renderCase_fit {host : Host} {lines : List Layout} (rendered : renderCase table host case = .ok lines) :
    FitLines (caseShape (decide (case.impact ≠ ""),case.evidenceSides.length)) lines ∧ ∀ line ∈ lines, InertLine line := by
  obtain ⟨ordered,sides,length,each,rfl⟩ := renderCase_ok rendered
  constructor
  · rw [caseShape,←length]
    exact forall₂_append (headLines_fit case) (sides_fit each)
  · intro line member
    rcases List.mem_append.mp member with head | side
    · exact headLines_inert case line head
    · obtain ⟨shown,inside,here⟩ := List.mem_flatMap.mp side
      obtain ⟨origin,_,printed⟩ := forall₂_origin each inside
      rcases List.mem_cons.mp here with rfl | body
      · exact inert_nil
      · exact renderSide_inert printed line body

-- The sections of a report that is rendered.
theorem sections_ok {host : Host} {rendered : List (List Layout)} (done : sections table host cases = .ok rendered) :
    List.Forall₂ Shaped (shapes (presence cases)) rendered ∧ ∀ section' ∈ rendered, ∀ line ∈ section', InertLine line := by
  have heading : InertLine [.text "# Intent Engineering drift report".toList] := inert_text (by decide) inert_nil
  have titled : Shaped [.opens "# Intent Engineering drift report".toList] [[.text "# Intent Engineering drift report".toList]] :=
    shaped_opened fits_text (by decide) .nil
  unfold sections at done
  split at done
  · rename_i nothing
    cases done
    rw [presence,nothing]
    constructor
    · exact .cons titled (.cons (shaped_opened fits_text (by decide) .nil) .nil)
    · intro section' member line inside
      simp only [emptyReport,List.mem_cons,List.not_mem_nil,or_false] at member
      rcases member with rfl | rfl
      · rw [List.mem_singleton.mp inside]
        exact heading
      · rw [List.mem_singleton.mp inside]
        exact inert_text (by decide) inert_nil
  · rename_i something
    cases ran : (openCases cases).mapM (renderCase table host) with
    | error e =>
      rw [ran] at done
      cases done
    | ok bodies' =>
      rw [ran] at done
      cases done
      have each := mapM_ok ran
      have present : presence cases ≠ [] := by simpa [presence] using something
      constructor
      · rw [shapes,if_neg present]
        refine .cons titled ?_
        rw [presence,List.map_map]
        apply List.forall₂_map_left_iff.mpr
        apply each.imp
        intro case lines rendered
        obtain ⟨fits,_⟩ := renderCase_fit rendered
        cases fits with
        | cons first rest => exact shaped_opened first (by decide) rest
      · intro section' member line inside
        rcases List.mem_cons.mp member with rfl | later
        · rw [List.mem_singleton.mp inside]
          exact heading
        · obtain ⟨case,_,rendered⟩ := forall₂_origin each later
          exact (renderCase_fit rendered).2 line inside

theorem sections_closed {host : Host} {rendered : List (List Layout)} (done : sections table host cases = .ok rendered) :
    AllClosed rendered := fun section' member line inside segment found => ((sections_ok done).2 section' member line inside segment found).2

-- The lines of the report are told by what there is to show.
theorem report_lines {host : Host} (done : renderDriftReport table host cases = .ok text) :
    List.Forall₂ Opening.Fits (skeleton (shapes (presence cases))) ((lines lineRule text).map Line.body) := by
  unfold renderDriftReport at done
  cases rendered : sections table host cases with
  | error e =>
    rw [rendered] at done
    cases done
  | ok shown =>
    rw [rendered] at done
    cases done
    obtain ⟨shaped,inert⟩ := sections_ok rendered
    have unbroken : Unbroken shown := fun section' member line inside =>
      layout_plain fun segment found => (inert section' member line inside segment found).1
    have visible : ∃ section' ∈ shown, paragraph section' ≠ [] := by
      unfold shapes at shaped
      split at shaped
      · cases shaped with
        | cons first _ => exact ⟨_,List.mem_cons_self,fun hidden => List.cons_ne_nil _ _ (first.shown.mpr hidden)⟩
      · cases shaped with
        | cons first _ => exact ⟨_,List.mem_cons_self,fun hidden => List.cons_ne_nil _ _ (first.shown.mpr hidden)⟩
    rw [document_lines visible unbroken]
    exact bodies_fit shaped

end Shape

section Order
variable {table : Categories}

theorem open_perm {cases others : List ReconciliationCase} (distinct : (cases.map ReconciliationCase.id).Nodup) (same : cases.Perm others) :
    openCases cases = openCases others := by
  have sorted (listed : List ReconciliationCase) : (openCases listed).Pairwise fun a b => caseSortKey a ≤ caseSortKey b :=
    List.pairwise_insertionSort _ _
  have perm : (openCases cases).Perm (openCases others) :=
    (List.perm_insertionSort _ _).trans ((same.filter _).trans (List.perm_insertionSort _ _).symm)
  refine perm.eq_of_pairwise ?_ (sorted cases) (sorted others)
  intro a b first second below above
  have member (case : ReconciliationCase) (inside : case ∈ openCases cases) : case ∈ cases :=
    (List.mem_filter.mp ((List.perm_insertionSort _ _).mem_iff.mp inside)).1
  have keys : caseSortKey a = caseSortKey b := le_antisymm below above
  have ids : a.id = b.id := congrArg (fun key => (ofLex key).2) keys
  exact List.inj_on_of_nodup_map distinct (member a first) (member b (perm.mem_iff.mpr second)) ids

theorem report_reordered {host : Host} {cases others : List ReconciliationCase} (distinct : (cases.map ReconciliationCase.id).Nodup)
    (same : cases.Perm others) : renderDriftReport table host others = renderDriftReport table host cases := by
  rw [renderDriftReport,renderDriftReport,sections,sections,open_perm distinct same]

end Order

end DriftReport
