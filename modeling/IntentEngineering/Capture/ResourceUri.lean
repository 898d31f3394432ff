import IntentEngineering.Library.ByteFrames
import IntentEngineering.Library.ByteText
import IntentEngineering.Library.Uri

namespace ResourceUri
open ByteText

-- A template as the placeholder pattern takes it apart.
inductive Token where
  | literal (c : Char)
  | placeholder (name : List Char)
deriving DecidableEq

def openBrace : Char := '\x7b'
def closeBrace : Char := '\x7d'

def isNameStart (c : Char) : Bool :=
  decide (65 ≤ c.toNat ∧ c.toNat ≤ 90) || decide (97 ≤ c.toNat ∧ c.toNat ≤ 122) || decide (c = '_')

def isNameCharacter (c : Char) : Bool := isNameStart c || decide (48 ≤ c.toNat ∧ c.toNat ≤ 57) || decide (c = '-')

-- One match of `_RESOURCE_PLACEHOLDER` at the start of a text, and what follows it.
def placeholderAt : List Char → Option (List Char × List Char)
  | [] => none
  | c :: cs =>
    let name := cs.takeWhile isNameCharacter
    if c = openBrace ∧ name.head?.any isNameStart = true ∧ name.length ≤ 256 ∧
        (cs.dropWhile isNameCharacter).head? = some closeBrace then
      some (name,(cs.dropWhile isNameCharacter).drop 1)
    else none

-- The matches of the pattern from left to right, and the characters between them.
def scan : Nat → List Char → List Token
  | 0, _ => []
  | _, [] => []
  | fuel + 1, c :: cs =>
    match placeholderAt (c :: cs) with
    | some (name,rest) => .placeholder name :: scan fuel rest
    | none => .literal c :: scan fuel cs

def tokens (template : List Char) : List Token := scan template.length template

def placeholders (ts : List Token) : List (List Char) :=
  ts.filterMap fun
    | .placeholder name => some name
    | .literal _ => none

-- `_RESOURCE_BOUNDARIES`
def resourceBoundaries : List Char :=
  [':','/','?','#','[',']','@','!','$','&',Char.ofNat 39,'(',')','*','+',',',';','=']

-- Beside a placeholder stands a boundary; the brace of another one is none.
def isBoundary : Token → Bool
  | .literal c => decide (c ∈ resourceBoundaries)
  | .placeholder _ => false

def isPlaceholder : Token → Bool
  | .literal _ => false
  | .placeholder _ => true

def bounded : List Token → Bool
  | [] => true
  | [_] => true
  | a :: b :: rest => (!isPlaceholder b || isBoundary a) && (!isPlaceholder a || isBoundary b) && bounded (b :: rest)

abbrev Arguments := List (List Char × Json)

-- `_resource_argument`
def resourceArgument : Json → List Char
  | .str s => quote (Utf8.encode s.toList)
  | v => quote (Utf8.encode v.text)

def expand (arguments : Arguments) : Token → List Char
  | .literal c => [c]
  | .placeholder name => resourceArgument ((arguments.lookup name).getD .null)

-- `_resource_uri`, without the text of its one error.
def resourceUri (template : List Char) (arguments : Arguments) : Option (List Char) :=
  let ts := tokens template
  let names := placeholders ts
  if names = [] then
    if arguments ≠ [] ∨ openBrace ∈ template ∨ closeBrace ∈ template then none else some template
  else if ¬(names ⊆ arguments.map Prod.fst ∧ arguments.map Prod.fst ⊆ names) then none
  else if !bounded ts then none
  else
    let expanded := ts.flatMap (expand arguments)
    if openBrace ∈ expanded ∨ closeBrace ∈ expanded ∨ 8192 < (Utf8.encode expanded).length then none else some expanded

-- Arguments whose values are strings.
abbrev Texts := List (List Char × List Char)

def texts (values : Texts) : Arguments := values.map fun entry => (entry.1,.str (String.ofList entry.2))

def value (values : Texts) (name : List Char) : List Char := (values.lookup name).getD []

def character : Token → Option Char
  | .literal c => some c
  | .placeholder _ => none

def write (values : Texts) : Token → List Char
  | .literal c => [c]
  | .placeholder name => quote (Utf8.encode (value values name))

-- What an expansion promises: other arguments give another URI, no argument brings
-- a reserved character or a brace into it, none is a dot segment, and the parts of
-- the template stay the parts of the URI, with and without its dot segments.
structure Confined (template : List Char) (values : Texts) (uri : List Char) : Prop where
  injective : ∀ values', resourceUri template (texts values') = some uri →
    ∀ name ∈ placeholders (tokens template), value values' name = value values name
  plain : ∀ name ∈ placeholders (tokens template), ∀ c ∈ write values (.placeholder name),
    c ∉ openBrace :: closeBrace :: resourceBoundaries
  dots : ∀ segment ∈ (Uri.components character (tokens template)).path, segment.any isPlaceholder = true →
    segment.flatMap (write values) ≠ ['.'] ∧ segment.flatMap (write values) ≠ ['.','.']
  parts : Uri.components some uri = (Uri.components character (tokens template)).map (List.flatMap (write values))
  segments : Uri.removeDots some (Uri.components some uri).path =
    (Uri.removeDots character (Uri.components character (tokens template)).path).map (Uri.writePiece (write values))

-- Two slashes at the start with nothing but empty arguments between and before them.
inductive Uncovered (values : Texts) : List Token → Prop where
  | first (name : List Char) (rest : List Token) (empty : value values name = []) :
      Uncovered values (.placeholder name :: .literal '/' :: .literal '/' :: rest)
  | second (name : List Char) (rest : List Token) (empty : value values name = []) :
      Uncovered values (.literal '/' :: .placeholder name :: .literal '/' :: rest)
  | both (name name' : List Char) (rest : List Token) (empty : value values name = []) (empty' : value values name' = []) :
      Uncovered values (.placeholder name :: .literal '/' :: .placeholder name' :: .literal '/' :: rest)

-- A condition on the template and the arguments: none that makes up a whole path
-- segment is one or two dots, none that makes up the scheme is empty, and none whose
-- place is left empty brings two slashes together where an authority would start.
structure Safe (template : List Char) (values : Texts) : Prop where
  dots : ∀ name, [.placeholder name] ∈ (Uri.components character (tokens template)).path →
    value values name ≠ ['.'] ∧ value values name ≠ ['.','.']
  scheme : ∀ name rest, tokens template = .placeholder name :: .literal ':' :: rest → value values name ≠ []
  slashes : ¬Uncovered values (Uri.hierarchical character (tokens template))

section Expansion
variable {values : Texts}

theorem texts_lookup (values : Texts) (name : List Char) :
    (texts values).lookup name = (values.lookup name).map fun text => .str (String.ofList text) := by
  induction values with
  | nil => rfl
  | cons entry values ih =>
    obtain ⟨key,text⟩ := entry
    simp only [texts,List.map_cons,List.lookup_cons] at ih ⊢
    cases name == key with
    | true => rfl
    | false => exact ih

theorem expand_write {ts : List Token} (bound : placeholders ts ⊆ (texts values).map Prod.fst) :
    ts.flatMap (expand (texts values)) = ts.flatMap (write values) := by
  refine List.flatMap_congr fun t member => ?_
  cases t with
  | literal c => rfl
  | placeholder name =>
    have listed : name ∈ placeholders ts := List.mem_filterMap.mpr ⟨_,member,rfl⟩
    cases found : values.lookup name with
    | none =>
      have absent := List.lookup_eq_none_iff.mp found
      obtain ⟨entry,inside,same⟩ := List.mem_map.mp (bound listed)
      obtain ⟨source,there,rfl⟩ := List.mem_map.mp inside
      exact absurd same.symm (by simpa using (absent source there))
    | some text => simp [expand,write,value,texts_lookup,found,resourceArgument]

theorem reserved_quoted : ∀ c ∈ openBrace :: closeBrace :: resourceBoundaries, isQuoted c = false := by decide

theorem write_plain (name : List Char) : ∀ c ∈ write values (.placeholder name), c ∉ openBrace :: closeBrace :: resourceBoundaries := by
  intro c member reserved
  have quoted := quote_quoted _ c member
  rw [reserved_quoted c reserved] at quoted
  cases quoted

theorem marks_reserved : ∀ c ∈ Uri.schemeMarks, c ∈ openBrace :: closeBrace :: resourceBoundaries := by decide

theorem write_faithful : Uri.Faithful character (write values) := by
  constructor
  · intro t c known
    cases t with
    | literal d => cases known; rfl
    | placeholder name => cases known
  · intro t unknown c member mark
    cases t with
    | literal d => cases unknown
    | placeholder name => exact write_plain name c member (marks_reserved c mark)

theorem encode_dot : quote (Utf8.encode ['.']) = ['.'] ∧ quote (Utf8.encode ['.','.']) = ['.','.'] := by decide

theorem write_same {values' : Texts} {name : List Char} (same : write values (.placeholder name) = write values' (.placeholder name)) :
    value values name = value values' name := ByteFrames.encode_injective (quote_injective same)

-- Where a placeholder stands alone, its argument can be read off.
theorem write_eq {name text : List Char} (same : write values (.placeholder name) = quote (Utf8.encode text)) :
    value values name = text := ByteFrames.encode_injective (quote_injective same)

theorem write_empty {name : List Char} (empty : write values (.placeholder name) = []) : value values name = [] :=
  @write_eq _ name [] empty

theorem bounded_cons {t : Token} {ts : List Token} (fit : bounded (t :: ts) = true) : bounded ts = true := by
  cases ts with
  | nil => rfl
  | cons next ts =>
    simp only [bounded,Bool.and_eq_true] at fit
    exact fit.2

-- After a placeholder the text ends or goes on at a boundary.
theorem bounded_next {name : List Char} {t : Token} {ts : List Token} (fit : bounded (.placeholder name :: t :: ts) = true) :
    ∃ c ∈ resourceBoundaries, t = .literal c := by
  simp only [bounded,isPlaceholder,Bool.not_true,Bool.false_or,Bool.and_eq_true] at fit
  cases t with
  | literal c => exact ⟨c,by simpa [isBoundary] using fit.1.2,rfl⟩
  | placeholder other => simp [isBoundary] at fit

theorem bounded_previous {name : List Char} {t : Token} {ts : List Token} (fit : bounded (t :: .placeholder name :: ts) = true) :
    ∃ c ∈ resourceBoundaries, t = .literal c := by
  simp only [bounded,isPlaceholder,Bool.not_true,Bool.false_or,Bool.and_eq_true] at fit
  cases t with
  | literal c => exact ⟨c,by simpa [isBoundary] using fit.1.1,rfl⟩
  | placeholder other => simp [isBoundary] at fit

-- The arguments are read back from the text between boundaries.
theorem write_injective {values' : Texts} {ts : List Token} (fit : bounded ts = true)
    (same : ts.flatMap (write values) = ts.flatMap (write values')) :
    ∀ name ∈ placeholders ts, value values name = value values' name := by
  induction ts with
  | nil => simp [placeholders]
  | cons t ts ih =>
    cases t with
    | literal c =>
      have later := ih (bounded_cons fit) (List.cons.inj same).2
      simpa [placeholders] using later
    | placeholder first =>
      have halt (values : Texts) : (write values (.placeholder first) ++ ts.flatMap (write values)).takeWhile isQuoted =
          write values (.placeholder first) ∧
          (write values (.placeholder first) ++ ts.flatMap (write values)).dropWhile isQuoted = ts.flatMap (write values) := by
        have all := quote_quoted (Utf8.encode (value values first))
        rw [write,List.takeWhile_append_of_pos all,List.dropWhile_append_of_pos all]
        cases ts with
        | nil => simp
        | cons next ts =>
          obtain ⟨c,boundary,rfl⟩ := bounded_next fit
          have stop := reserved_quoted c (by simp [boundary])
          simp [write,stop]
      simp only [List.flatMap_cons] at same
      have head : write values (.placeholder first) = write values' (.placeholder first) := by
        rw [←(halt values).1,same,(halt values').1]
      have tail : ts.flatMap (write values) = ts.flatMap (write values') := by
        rw [←(halt values).2,same,(halt values').2]
      have later := ih (bounded_cons fit) tail
      intro name member
      rcases List.mem_cons.mp (show name ∈ first :: placeholders ts from member) with rfl | member
      · exact write_same head
      · exact later name member

theorem scan_plain (fuel : Nat) (cs : List Char) (enough : cs.length ≤ fuel) (none' : placeholders (scan fuel cs) = []) :
    scan fuel cs = cs.map .literal := by
  induction fuel generalizing cs with
  | zero =>
    cases cs with
    | nil => rfl
    | cons c cs => cases enough
  | succ fuel ih =>
    cases cs with
    | nil => rfl
    | cons c cs =>
      simp only [scan] at none' ⊢
      cases found : placeholderAt (c :: cs) with
      | some matched => simp [found,placeholders] at none'
      | none =>
        simp only [found] at none'
        rw [ih cs (by simpa using enough) none',List.map_cons]

theorem bounded_plain {ts : List Token} (plain : ∀ t ∈ ts, isPlaceholder t = false) : bounded ts = true := by
  induction ts with
  | nil => rfl
  | cons t ts ih =>
    cases ts with
    | nil => rfl
    | cons next ts =>
      simp only [bounded,plain t (by simp),plain next (by simp),Bool.not_false,Bool.true_or,Bool.true_and]
      exact ih fun other member => plain other (by simp [member])

-- An expansion is the template's text with the arguments quoted in their places.
theorem resourceUri_spec {template uri : List Char} (expanded : resourceUri template (texts values) = some uri) :
    uri = (tokens template).flatMap (write values) ∧ bounded (tokens template) = true := by
  simp only [resourceUri] at expanded
  split at expanded
  · rename_i none'
    split at expanded
    · cases expanded
    · cases expanded
      have plain : tokens template = template.map .literal := scan_plain _ _ (Nat.le_refl _) none'
      rw [plain]
      constructor
      · rw [List.flatMap_map]
        exact (List.flatMap_singleton' template).symm
      · apply bounded_plain
        intro t member
        obtain ⟨c,_,rfl⟩ := List.mem_map.mp member
        rfl
  · split at expanded
    · cases expanded
    · rename_i bound
      split at expanded
      · cases expanded
      · rename_i fit
        split at expanded
        · cases expanded
        · cases expanded
          exact ⟨expand_write (not_not.mp bound).1,by simpa using fit⟩

end Expansion

-- Every character of a text with a placeholder in it comes from the placeholder
-- where the text is made of dots.
section Dots
variable {values : Texts}

theorem splitOnP_head (p : Token → Bool) (ts : List Token) : ∃ first rest, ts.splitOnP p = first :: rest ∧ first <+: ts := by
  induction ts with
  | nil => exact ⟨[],[],rfl,List.nil_prefix⟩
  | cons t ts ih =>
    obtain ⟨first,rest,parts,start⟩ := ih
    rw [List.splitOnP_cons_eq_if_modifyHead,parts]
    split
    · exact ⟨[],_,rfl,List.nil_prefix⟩
    · exact ⟨t :: first,rest,rfl,List.cons_prefix_cons.mpr ⟨rfl,start⟩⟩

theorem infix_splitOnP {p : Token → Bool} {part ts : List Token} (member : part ∈ ts.splitOnP p) : part <:+: ts := by
  induction ts generalizing part with
  | nil =>
    rw [List.splitOnP_nil,List.mem_singleton] at member
    rw [member]
  | cons t ts ih =>
    have whole : ts <:+: t :: ts := (List.suffix_cons t ts).isInfix
    obtain ⟨first,rest,parts,start⟩ := splitOnP_head p ts
    have later (inside : part ∈ rest) : part <:+: t :: ts := (ih (by rw [parts]; simp [inside])).trans whole
    rw [List.splitOnP_cons_eq_if_modifyHead,parts] at member
    split at member
    · rcases List.mem_cons.mp member with rfl | member
      · exact List.nil_infix
      · rcases List.mem_cons.mp member with rfl | member
        · exact start.isInfix.trans whole
        · exact later member
    · rcases List.mem_cons.mp member with rfl | member
      · exact (List.cons_prefix_cons.mpr ⟨rfl,start⟩).isInfix
      · exact later member

theorem bounded_start {part rest : List Token} (fit : bounded (part ++ rest) = true) : bounded part = true := by
  induction part with
  | nil => rfl
  | cons t part ih =>
    cases part with
    | nil => rfl
    | cons next part =>
      simp only [List.cons_append,bounded,Bool.and_eq_true] at fit ih ⊢
      exact ⟨fit.1,ih fit.2⟩

theorem bounded_suffix {before ts : List Token} (fit : bounded (before ++ ts) = true) : bounded ts = true := by
  induction before with
  | nil => exact fit
  | cons t before ih => exact ih (bounded_cons fit)

theorem bounded_part {part ts : List Token} (fit : bounded ts = true) (inside : part <:+: ts) : bounded part = true := by
  obtain ⟨before,after,rfl⟩ := inside
  exact bounded_suffix (bounded_start fit)

-- A placeholder in a text of dots stands alone.
theorem dots_alone {segment : List Token} (fit : bounded segment = true) (some' : segment.any isPlaceholder = true)
    (dots : ∀ c ∈ segment.flatMap (write values), c = '.') : ∃ name, segment = [.placeholder name] := by
  have apart {c : Char} (member : c ∈ resourceBoundaries) : c ≠ '.' := by
    rintro rfl
    exact absurd member (by decide)
  induction segment with
  | nil => cases some'
  | cons t rest ih =>
    have later : ∀ c ∈ rest.flatMap (write values), c = '.' := fun c member => dots c (by simp only [List.flatMap_cons]; simp [member])
    cases t with
    | placeholder name =>
      cases rest with
      | nil => exact ⟨name,rfl⟩
      | cons next rest =>
        obtain ⟨c,boundary,rfl⟩ := bounded_next fit
        exact absurd (later c (by simp [write])) (apart boundary)
    | literal c =>
      obtain ⟨name,rfl⟩ := ih (bounded_cons fit) (by simpa [isPlaceholder] using some') later
      obtain ⟨d,boundary,same⟩ := bounded_previous fit
      cases same
      exact absurd (dots c (by simp [write])) (apart boundary)

theorem isDot_some (text : List Char) : Uri.isDot some text = decide (text = ['.']) ∧ Uri.isDotDot some text = decide (text = ['.','.']) := by
  have injective := List.map_injective_iff.mpr (Option.some_injective Char)
  exact ⟨decide_eq_decide.mpr (injective.eq_iff (b := ['.'])),decide_eq_decide.mpr (injective.eq_iff (b := ['.','.']))⟩

theorem plain_sameDots {segment : List Token} (plain : segment.any isPlaceholder = false) :
    Uri.SameDots character (write values) segment := by
  have same : (segment.flatMap (write values)).map some = segment.map character := by
    induction segment with
    | nil => rfl
    | cons t rest ih =>
      simp only [List.any_cons,Bool.or_eq_false_iff] at plain
      cases t with
      | placeholder name => cases plain.1
      | literal c => simp [write,character,ih plain.2]
  exact ⟨by rw [Uri.isDot,Uri.isDot,same],by rw [Uri.isDotDot,Uri.isDotDot,same]⟩

theorem dots_known {segment : List Token} {cs : List Char} (known : segment.map character = cs.map some) : segment.any isPlaceholder = false := by
  rw [List.any_eq_false]
  intro t member
  have inside : character t ∈ cs.map some := known ▸ List.mem_map_of_mem member
  obtain ⟨c,_,same⟩ := List.mem_map.mp inside
  cases t with
  | literal d => simp [isPlaceholder]
  | placeholder name => cases same

theorem placed_sameDots {segment : List Token} (some' : segment.any isPlaceholder = true)
    (dots : segment.flatMap (write values) ≠ ['.'] ∧ segment.flatMap (write values) ≠ ['.','.']) :
    Uri.SameDots character (write values) segment := by
  have other (cs : List Char) : segment.map character ≠ cs.map some := by
    intro known
    rw [dots_known known] at some'
    cases some'
  constructor
  · rw [(isDot_some _).1,decide_eq_false dots.1]
    exact (decide_eq_false (other ['.'])).symm
  · rw [(isDot_some _).2,decide_eq_false dots.2]
    exact (decide_eq_false (other ['.','.'])).symm

end Dots

section Main
variable {template uri : List Char} {values : Texts}

theorem path_bounded (fit : bounded (tokens template) = true) {segment : List Token}
    (member : segment ∈ (Uri.components character (tokens template)).path) : bounded segment = true := by
  have inside := infix_splitOnP member
  have path := (List.takeWhile_prefix (l := Uri.pathOn character (Uri.hierarchical character (tokens template)))
    fun t => !Uri.isMark character Uri.pathMarks t).isInfix
  have whole := ((Uri.pathOn_suffix character _).trans (Uri.hierarchical_suffix character (tokens template))).isInfix
  exact bounded_part fit (inside.trans (path.trans whole))

theorem literal_known {t : Token} {c : Char} (known : character t = some c) : t = .literal c := by
  cases t with
  | literal d =>
    cases known
    rfl
  | placeholder name => cases known

-- What is written as nothing is one argument.
theorem empty_alone {ts : List Token} (fit : bounded ts = true) (some' : ts ≠ []) (empty : ts.flatMap (write values) = []) :
    ∃ name, ts = [.placeholder name] ∧ value values name = [] := by
  cases ts with
  | nil => exact absurd rfl some'
  | cons t rest =>
    obtain ⟨first,later⟩ := List.append_eq_nil_iff.mp (show write values t ++ rest.flatMap (write values) = [] from empty)
    cases t with
    | literal c => cases first
    | placeholder name =>
      cases rest with
      | nil => exact ⟨name,rfl,write_empty first⟩
      | cons next rest =>
        obtain ⟨c,_,rfl⟩ := bounded_next fit
        cases later

theorem scheme_safe (fit : bounded (tokens template) = true)
    (safe : ∀ name rest, tokens template = .placeholder name :: .literal ':' :: rest → value values name ≠ [])
    (scheme : Uri.hasScheme character (tokens template) = true) :
    (Uri.before character Uri.schemeMarks (tokens template)).flatMap (write values) ≠ [] := by
  intro empty
  simp only [Uri.hasScheme,Bool.and_eq_true,decide_eq_true_eq] at scheme
  have whole := Uri.before_from character Uri.schemeMarks (tokens template)
  obtain ⟨name,alone,nothing⟩ := empty_alone (bounded_start (whole ▸ fit)) scheme.1 empty
  obtain ⟨t,rest,after,known⟩ := Uri.starts_some character scheme.2
  rw [alone,after,literal_known known] at whole
  exact safe name rest whole.symm nothing

theorem write_slash {name : List Char} {text : List Char} (start : write values (.placeholder name) ++ text = '/' :: later) :
    value values name = [] ∧ text = '/' :: later := by
  cases written : write values (.placeholder name) with
  | nil =>
    rw [written] at start
    exact ⟨write_empty written,start⟩
  | cons c cs =>
    rw [written] at start
    have slash := (List.cons.inj start).1
    have plain := @write_plain values name '/' (by rw [written,slash]; simp)
    exact absurd plain (by decide)

theorem slashes_safe {ts : List Token} (fit : bounded ts = true) (safe : ¬Uncovered values ts)
    (two : Uri.hasAuthority some (ts.flatMap (write values)) = true) : Uri.hasAuthority character ts = true := by
  simp only [Uri.hasAuthority,Bool.and_eq_true] at two
  obtain ⟨c,text,written,slash⟩ := Uri.starts_some some two.1
  cases slash
  rw [written,List.drop_succ_cons,List.drop_zero] at two
  obtain ⟨c,later,written',slash⟩ := Uri.starts_some some two.2
  cases slash
  rw [written'] at written
  -- By what stands at the two slashes: literals, or arguments left empty before them.
  cases ts with
  | nil => cases written
  | cons t rest =>
    have second {rest : List Token} (follows : rest.flatMap (write values) = '/' :: later) (fit : bounded rest = true) :
        (∃ more, rest = .literal '/' :: more) ∨ ∃ name more, rest = .placeholder name :: .literal '/' :: more ∧ value values name = [] := by
      cases rest with
      | nil => cases follows
      | cons t rest =>
        cases t with
        | literal d =>
          have same := (List.cons.inj follows).1
          exact .inl ⟨rest,by rw [same]⟩
        | placeholder name =>
          obtain ⟨empty,after⟩ := write_slash follows
          cases rest with
          | nil => cases after
          | cons next rest =>
            obtain ⟨d,_,rfl⟩ := bounded_next fit
            have same := (List.cons.inj after).1
            exact .inr ⟨name,rest,by rw [same],empty⟩
    cases t with
    | literal d =>
      obtain ⟨same,follows⟩ := List.cons.inj written
      cases same
      rcases second follows (bounded_cons fit) with found | found
      · obtain ⟨more,rfl⟩ := found
        rfl
      · obtain ⟨name,more,rfl,empty⟩ := found
        exact absurd (.second name more empty) safe
    | placeholder name =>
      obtain ⟨empty,after⟩ := write_slash written
      cases rest with
      | nil => cases after
      | cons next rest =>
        obtain ⟨d,_,rfl⟩ := bounded_next fit
        obtain ⟨same,follows⟩ := List.cons.inj after
        cases same
        rcases second follows (bounded_cons (bounded_cons fit)) with found | found
        · obtain ⟨more,rfl⟩ := found
          exact absurd (.first name more empty) safe
        · obtain ⟨name',more,rfl,empty'⟩ := found
          exact absurd (.both name name' more empty empty') safe

theorem safe_confined (expanded : resourceUri template (texts values) = some uri) (safe : Safe template values) :
    Confined template values uri := by
  obtain ⟨written,fit⟩ := resourceUri_spec expanded
  have dots : ∀ segment ∈ (Uri.components character (tokens template)).path, segment.any isPlaceholder = true →
      segment.flatMap (write values) ≠ ['.'] ∧ segment.flatMap (write values) ≠ ['.','.'] := by
    intro segment member some'
    have alone (text : List Char) (dots : ∀ c ∈ text, c = '.') (same : segment.flatMap (write values) = text) :
        ∃ name, segment = [.placeholder name] := dots_alone (path_bounded fit member) some' (same ▸ dots)
    constructor
    · intro same
      obtain ⟨name,rfl⟩ := alone _ (by simp) same
      rw [List.flatMap_singleton,←encode_dot.1] at same
      exact (safe.dots name member).1 (write_eq same)
    · intro same
      obtain ⟨name,rfl⟩ := alone _ (by simp) same
      rw [List.flatMap_singleton,←encode_dot.2] at same
      exact (safe.dots name member).2 (write_eq same)
  have hier : bounded (Uri.hierarchical character (tokens template)) = true :=
    bounded_part fit (Uri.hierarchical_suffix character _).isInfix
  have parts : Uri.components some uri = (Uri.components character (tokens template)).map (List.flatMap (write values)) := by
    rw [written]
    exact Uri.components_write write_faithful ⟨scheme_safe fit safe.scheme,slashes_safe hier safe.slashes⟩
  refine ⟨?_,fun name _ => write_plain name,dots,parts,?_⟩
  · intro values' other
    have same := (resourceUri_spec other).1
    rw [written] at same
    exact fun name member => (write_injective fit same name member).symm
  · rw [parts]
    apply Uri.removeDots_write
    intro segment member
    cases placed : segment.any isPlaceholder with
    | false => exact plain_sameDots placed
    | true => exact placed_sameDots placed (dots segment member placed)

theorem uncovered_slashes {ts : List Token} (uncovered : Uncovered values ts) :
    Uri.hasAuthority some (ts.flatMap (write values)) = true ∧ Uri.hasAuthority character ts = false := by
  have nothing {name : List Char} (empty : value values name = []) : quote (Utf8.encode (value values name)) = [] := by
    rw [empty]
    rfl
  cases uncovered with
  | first name rest empty => exact ⟨by simp [nothing empty,write,Uri.hasAuthority,Uri.starts,Uri.isMark],rfl⟩
  | second name rest empty => exact ⟨by simp [nothing empty,write,Uri.hasAuthority,Uri.starts,Uri.isMark],rfl⟩
  | both name name' rest empty empty' =>
    exact ⟨by simp [nothing empty,nothing empty',write,Uri.hasAuthority,Uri.starts,Uri.isMark],rfl⟩

theorem confined_safe (expanded : resourceUri template (texts values) = some uri) (confined : Confined template values uri) :
    Safe template values := by
  obtain ⟨written,fit⟩ := resourceUri_spec expanded
  have scheme : ∀ name rest, tokens template = .placeholder name :: .literal ':' :: rest → value values name ≠ [] := by
    intro name rest shape empty
    have parts := congrArg Uri.Components.scheme confined.parts
    have text : uri = ':' :: rest.flatMap (write values) := by
      rw [written,shape]
      simp [write,empty,Utf8.encode,quote]
    rw [text,shape] at parts
    simp [Uri.components,Uri.Components.map,Uri.hasScheme,Uri.before,Uri.from',Uri.starts,Uri.isMark,Uri.schemeMarks,character] at parts
  refine ⟨?_,scheme,?_⟩
  · intro name member
    have dots := confined.dots _ member rfl
    rw [List.flatMap_singleton] at dots
    constructor
    · intro same
      exact dots.1 (by rw [write,same,encode_dot.1])
    · intro same
      exact dots.2 (by rw [write,same,encode_dot.2])
  · intro uncovered
    have parts := congrArg Uri.Components.authority confined.parts
    have hier := Uri.hierarchical_write write_faithful (scheme_safe fit scheme)
    rw [written] at parts
    simp only [Uri.components,Uri.Components.map,hier] at parts
    have two := uncovered_slashes uncovered
    rw [if_pos two.1,if_neg (by simp [two.2])] at parts
    cases parts

end Main

-- For every template and every map of strings that it is expanded with.
theorem confined_iff (template : List Char) (values : Texts) (uri : List Char) (expanded : resourceUri template (texts values) = some uri) :
    Confined template values uri ↔ Safe template values :=
  ⟨confined_safe expanded,safe_confined expanded⟩

def documentTemplate : List Char := ['x',':','/','/','h','/','\x7b','a','\x7d','/','b']

theorem document_confined : Confined documentTemplate [(['a'],['t','o','p'])] ['x',':','/','/','h','/','t','o','p','/','b'] ↔
    Safe documentTemplate [(['a'],['t','o','p'])] := confined_iff documentTemplate _ _ (by decide)

-- Two dots for the middle segment lead out of the directory that the template names.
theorem parent_unconfined :
    ¬∀ template values uri, resourceUri template (texts values) = some uri → Confined template values uri := by
  intro claimed
  have confined := claimed documentTemplate [(['a'],['.','.'])] ['x',':','/','/','h','/','.','.','/','b'] (by decide)
  have segment := confined.dots [.placeholder ['a']] (by decide) (by decide)
  exact segment.2 (by decide)

end ResourceUri
