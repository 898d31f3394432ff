import IntentEngineering.Library.PyText
import Mathlib.Data.List.Forall2

-- Text that is put together from lines, and the lines that a reader of it sees.
namespace LineLayout
open LineText PyText

def backtick : Char := Char.ofNat 96

-- A stretch of a line: running text, or what stands between two backticks.
inductive Segment where
  | text (chars : List Char)
  | code (chars : List Char)

def Segment.chars : Segment → List Char
  | .text cs => cs
  | .code cs => backtick :: (cs ++ [backtick])

abbrev Layout := List Segment

def Layout.chars (line : Layout) : List Char := line.flatMap Segment.chars

-- `separator.join(parts)`
def join (separator : List α) : List (List α) → List α
  | [] => []
  | [part] => part
  | part :: next :: rest => part ++ (separator ++ join separator (next :: rest))

-- `"\n".join(lines)`
def paragraph (section' : List Layout) : List Char := join ['\n'] (section'.map Layout.chars)

-- `"\n\n".join(section for section in sections if section) + "\n"`
def document (sections : List (List Layout)) : List Char :=
  join ['\n','\n'] ((sections.map paragraph).filter (· ≠ [])) ++ ['\n']

-- `", ".join(f"...")` over code spans.
def codes : List (List Char) → Layout
  | [] => []
  | [part] => [.code part]
  | part :: next :: rest => .code part :: .text [',',' '] :: codes (next :: rest)

-- Each line of its own, one behind the other.
def stacked (lines : List (List Char)) : List Char := lines.flatMap (· ++ ['\n'])

-- The lines of the sections that are shown, an empty line between two of them.
def bodies (sections : List (List Layout)) : List (List Char) :=
  join [[]] ((sections.filter fun section' => paragraph section' ≠ []).map fun section' => section'.map Layout.chars)

-- What is fixed about a line: that it is empty, or how it starts.
inductive Opening where
  | blank
  | opens (start : List Char)

def Opening.Fits : Opening → List Char → Prop
  | .blank, line => line = []
  | .opens start, line => start <+: line

-- A code span that nothing inside it closes.
def Segment.Closed : Segment → Prop
  | .text _ => True
  | .code cs => backtick ∉ cs

def AllClosed (sections : List (List Layout)) : Prop := ∀ section' ∈ sections, ∀ line ∈ section', ∀ segment ∈ line, segment.Closed

def Unbroken (sections : List (List Layout)) : Prop := ∀ section' ∈ sections, ∀ line ∈ section', Plain lineRule line.chars

section Stacked

theorem stacked_append (xs ys : List (List Char)) : stacked (xs ++ ys) = stacked xs ++ stacked ys := by
  simp [stacked]

theorem join_stacked {ls : List (List Char)} (present : ls ≠ []) : join ['\n'] ls ++ ['\n'] = stacked ls := by
  induction ls with
  | nil => exact absurd rfl present
  | cons first rest ih =>
    cases rest with
    | nil => simp [join,stacked]
    | cons next rest =>
      have later := ih (List.cons_ne_nil _ _)
      simp only [join,List.append_assoc,later,stacked,List.flatMap_cons]

theorem join_sections {ps : List (List (List Char))} (present : ps ≠ []) (each : ∀ p ∈ ps, p ≠ []) :
    join ['\n','\n'] (ps.map (join ['\n'])) ++ ['\n'] = stacked (join [[]] ps) := by
  induction ps with
  | nil => exact absurd rfl present
  | cons first rest ih =>
    cases rest with
    | nil => simpa [join] using join_stacked (each first (by simp))
    | cons next rest =>
      have later := ih (List.cons_ne_nil _ _) fun p member => each p (List.mem_cons_of_mem _ member)
      have here := join_stacked (each first List.mem_cons_self)
      simp only [List.map_cons,join,stacked_append] at later ⊢
      rw [List.append_assoc,List.append_assoc,later,←here]
      simp [stacked]

theorem lines_empty (rest : List Char) : lines lineRule ('\n' :: rest) = ⟨[],['\n']⟩ :: lines lineRule rest := by
  have framed := scanFrom_frame lineRule [⟨[],['\n']⟩] ⟨[],[],false⟩ rest (by simp)
  have opened : scan lineRule ('\n' :: rest) = scanFrom lineRule ⟨[⟨[],['\n']⟩],[],false⟩ rest := rfl
  simp only [List.append_nil] at framed
  rw [lines,opened,framed]
  simp only [lines,scan,Scan.lines]
  split <;> simp_all

theorem lines_step (line rest : List Char) (plain : Plain lineRule line) :
    lines lineRule (line ++ '\n' :: rest) = ⟨line,['\n']⟩ :: lines lineRule rest := by
  cases line with
  | nil => exact lines_empty rest
  | cons c body =>
    have piece := lines_piece [] rest plain (show lineRule.isBreak '\n' = true by decide) (by decide)
    rw [show (scan lineRule ([] : List Char)).complete = [] from rfl,show (scan lineRule ([] : List Char)).pending = [] from rfl] at piece
    simpa using piece

-- A reader sees the lines that were put together.
theorem lines_stacked {ls : List (List Char)} (plain : ∀ l ∈ ls, Plain lineRule l) : (lines lineRule (stacked ls)).map Line.body = ls := by
  induction ls with
  | nil => rfl
  | cons first rest ih =>
    have later := ih fun l member => plain l (List.mem_cons_of_mem _ member)
    have split : stacked (first :: rest) = first ++ '\n' :: stacked rest := by simp [stacked]
    rw [split,lines_step _ _ (plain first List.mem_cons_self),List.map_cons,later]

theorem mem_join {separator : List α} {parts : List (List α)} (member : x ∈ join separator parts) :
    x ∈ separator ∨ ∃ part ∈ parts, x ∈ part := by
  induction parts with
  | nil => cases member
  | cons first rest ih =>
    cases rest with
    | nil => exact .inr ⟨first,List.mem_cons_self,member⟩
    | cons next rest =>
      simp only [join,List.mem_append] at member
      rcases member with here | between | later
      · exact .inr ⟨first,List.mem_cons_self,here⟩
      · exact .inl between
      · rcases ih later with between | ⟨part,inside,found⟩
        · exact .inl between
        · exact .inr ⟨part,List.mem_cons_of_mem _ inside,found⟩

end Stacked

section Documents
variable {sections : List (List Layout)}

theorem shown_sections (sections : List (List Layout)) :
    (sections.map paragraph).filter (· ≠ []) =
      ((sections.filter fun section' => paragraph section' ≠ []).map fun section' => section'.map Layout.chars).map (join ['\n']) := by
  rw [List.filter_map,List.map_map]
  rfl

theorem paragraph_present {section' : List Layout} (shown : paragraph section' ≠ []) : section'.map Layout.chars ≠ [] := by
  intro empty
  rw [paragraph,empty] at shown
  exact shown rfl

-- A document that shows anything is seen as the lines of its sections.
theorem document_lines (shown : ∃ section' ∈ sections, paragraph section' ≠ []) (unbroken : Unbroken sections) :
    (lines lineRule (document sections)).map Line.body = bodies sections := by
  obtain ⟨one,member,present⟩ := shown
  have stackedUp : document sections = stacked (bodies sections) := by
    rw [document,shown_sections,bodies]
    apply join_sections
    · simp only [ne_eq,List.map_eq_nil_iff,List.filter_eq_nil_iff,not_forall]
      exact ⟨one,member,by simpa using present⟩
    · intro p inside
      obtain ⟨section',kept,rfl⟩ := List.mem_map.mp inside
      exact paragraph_present (by simpa using (List.mem_filter.mp kept).2)
  rw [stackedUp]
  apply lines_stacked
  intro line inside
  rcases mem_join inside with blank | ⟨part,found,here⟩
  · rw [List.mem_singleton.mp blank]
    intro c impossible
    cases impossible
  · obtain ⟨section',kept,rfl⟩ := List.mem_map.mp found
    obtain ⟨layout,inside',rfl⟩ := List.mem_map.mp here
    exact unbroken section' (List.mem_filter.mp kept).1 layout inside'

-- A section and the openings of its lines. One that shows nothing has none.
structure Shaped (shape : List Opening) (section' : List Layout) : Prop where
  shown : shape = [] ↔ paragraph section' = []
  lines : shape ≠ [] → List.Forall₂ (fun opening (line : Layout) => opening.Fits line.chars) shape section'

def skeleton (shapes : List (List Opening)) : List Opening := join [.blank] (shapes.filter (· ≠ []))

theorem forall₂_append {relation : α → β → Prop} (first : List.Forall₂ relation xs ys) (second : List.Forall₂ relation xs' ys') :
    List.Forall₂ relation (xs ++ xs') (ys ++ ys') := by
  induction first with
  | nil => exact second
  | cons one _ ih => exact .cons one ih

theorem forall₂_origin {relation : α → β → Prop} (each : List.Forall₂ relation xs ys) (member : y ∈ ys) : ∃ x ∈ xs, relation x y := by
  induction each with
  | nil => cases member
  | cons first _ ih =>
    rcases List.mem_cons.mp member with rfl | later
    · exact ⟨_,List.mem_cons_self,first⟩
    · obtain ⟨x,inside,related⟩ := ih later
      exact ⟨x,List.mem_cons_of_mem _ inside,related⟩

theorem join_fits {shapes : List (List Opening)} {parts : List (List (List Char))}
    (each : List.Forall₂ (fun shape part => List.Forall₂ Opening.Fits shape part) shapes parts) :
    List.Forall₂ Opening.Fits (join [.blank] shapes) (join [[]] parts) := by
  induction each with
  | nil => exact .nil
  | @cons shape part shapes parts first rest ih =>
    cases rest with
    | nil => exact first
    | cons next later => exact forall₂_append first (forall₂_append (.cons rfl .nil) ih)

theorem bodies_fit {shapes : List (List Opening)} (each : List.Forall₂ Shaped shapes sections) :
    List.Forall₂ Opening.Fits (skeleton shapes) (bodies sections) := by
  apply join_fits
  induction each with
  | nil => exact .nil
  | @cons shape section' shapes sections first rest ih =>
    by_cases absent : shape = []
    · have hidden := first.shown.mp absent
      rw [List.filter_cons_of_neg (by simpa using absent),List.filter_cons_of_neg (by simpa using hidden)]
      exact ih
    · have visible : paragraph section' ≠ [] := fun hidden => absent (first.shown.mpr hidden)
      rw [List.filter_cons_of_pos (by simpa using absent),List.filter_cons_of_pos (by simpa using visible),List.map_cons]
      exact .cons (List.forall₂_map_right_iff.mpr (first.lines absent)) ih

theorem paragraph_first {line : Layout} {rest : List Layout} (present : line.chars ≠ []) : paragraph (line :: rest) ≠ [] := by
  cases rest with
  | nil => simpa [paragraph,join] using present
  | cons next rest => simp [paragraph,join,present]

theorem opens_present {start line : List Char} (fits : (Opening.opens start).Fits line) (solid : start ≠ []) : line ≠ [] := by
  rintro rfl
  exact solid (List.prefix_nil.mp fits)

-- A section with a first line that has a fixed start.
theorem shaped_opened {line : Layout} {rest : List Layout} (fits : (Opening.opens start).Fits line.chars) (solid : start ≠ [])
    (others : List.Forall₂ (fun opening (line : Layout) => opening.Fits line.chars) more rest) :
    Shaped (.opens start :: more) (line :: rest) where
  shown := ⟨fun empty => (List.cons_ne_nil _ _ empty).elim,fun hidden => (paragraph_first (opens_present fits solid) hidden).elim⟩
  lines _ := .cons fits others

theorem shaped_nothing : Shaped [] [] := ⟨⟨fun _ => rfl,fun _ => rfl⟩,fun absent => absurd rfl absent⟩

-- Some opening, without a claim on the text.
theorem fits_any (line : List Char) : (Opening.opens []).Fits line := List.nil_prefix

theorem fits_text {start : List Char} {rest : Layout} : (Opening.opens start).Fits (Layout.chars (.text start :: rest)) :=
  List.prefix_append _ _

end Documents

section Segments

def Segment.contents : Segment → List Char
  | .text cs => cs
  | .code cs => cs

theorem layout_plain {line : Layout} (each : ∀ segment ∈ line, Plain lineRule segment.contents) : Plain lineRule line.chars := by
  intro c member
  obtain ⟨segment,inside,found⟩ := List.mem_flatMap.mp member
  cases segment with
  | text cs => exact each _ inside c found
  | code cs =>
    simp only [Segment.chars,List.mem_cons,List.mem_append,List.not_mem_nil,or_false] at found
    have mark : lineRule.isBreak backtick = false := by decide
    rcases found with rfl | here | rfl
    · exact mark
    · exact each _ inside c here
    · exact mark

theorem mem_codes {segment : Segment} {parts : List (List Char)} (member : segment ∈ codes parts) :
    (∃ part ∈ parts, segment = .code part) ∨ segment = .text [',',' '] := by
  induction parts with
  | nil => cases member
  | cons first rest ih =>
    cases rest with
    | nil =>
      rw [List.mem_singleton.mp member]
      exact .inl ⟨first,List.mem_cons_self,rfl⟩
    | cons next rest =>
      simp only [codes,List.mem_cons] at member ih
      rcases member with rfl | rfl | later
      · exact .inl ⟨first,List.mem_cons_self,rfl⟩
      · exact .inr rfl
      · rcases ih later with ⟨part,inside,same⟩ | comma
        · exact .inl ⟨part,List.mem_cons_of_mem _ (List.mem_cons.mpr inside),same⟩
        · exact .inr comma

theorem code_codes {parts : List (List Char)} (member : part ∈ parts) : Segment.code part ∈ codes parts := by
  induction parts with
  | nil => cases member
  | cons first rest ih =>
    cases rest with
    | nil =>
      rw [List.mem_singleton.mp member]
      exact List.mem_cons_self
    | cons next rest =>
      rcases List.mem_cons.mp member with rfl | later
      · exact List.mem_cons_self
      · exact List.mem_cons_of_mem _ (List.mem_cons_of_mem _ (ih later))

theorem codes_plain {segment : Segment} {parts : List (List Char)} (plain : ∀ part ∈ parts, Plain lineRule part) (member : segment ∈ codes parts) :
    Plain lineRule segment.contents := by
  rcases mem_codes member with ⟨part,inside,rfl⟩ | rfl
  · exact plain part inside
  · decide

-- Code spans are closed when what stands in them is free of backticks.
theorem codes_closed {parts : List (List Char)} : (∀ segment ∈ codes parts, segment.Closed) ↔ ∀ part ∈ parts, backtick ∉ part := by
  constructor
  · intro closed part member
    exact closed _ (code_codes member)
  · intro free segment member
    rcases mem_codes member with ⟨part,inside,rfl⟩ | rfl
    · exact free part inside
    · trivial

end Segments

end LineLayout
