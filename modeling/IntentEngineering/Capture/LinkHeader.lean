import IntentEngineering.Library.PyText
import Mathlib.Data.List.DropRight

namespace LinkHeader

def isLinkTokenCharacter (c : Char) : Bool :=
  decide (48 ≤ c.toNat ∧ c.toNat ≤ 57) || decide (65 ≤ c.toNat ∧ c.toNat ≤ 90) || decide (97 ≤ c.toNat ∧ c.toNat ≤ 122) ||
    decide (c ∈ ['!','#','$','%','&',Char.ofNat 39,'*','+','-','.','^','_',Char.ofNat 96,'|','~'])

def isInvalidLinkTargetCharacter (c : Char) : Bool := decide (c ∈ ['<','>','"','\x7b','\x7d','|','\\','^',Char.ofNat 96])

-- `str.lower` on a token.
def lower (name : List Char) : List Char :=
  name.map fun c => if 65 ≤ c.toNat ∧ c.toNat ≤ 90 then Char.ofNat (c.toNat + 32) else c

-- How a run of the scanner ends when it does not return: in the error it raises,
-- in an access beyond the end, or not at all.
inductive Fault where
  | valueError (message : String)
  | indexError
  | endless
deriving DecidableEq

abbrev Scan := Except Fault

-- The scanner's position is the text from its index on.
abbrev Position := List Char

def charAt : Position → Scan Char
  | [] => .error .indexError
  | c :: _ => .ok c

def isLinkSpace (c : Char) : Bool := c = ' ' || c = '\t'

def skipWhitespace (position : Position) : Position := position.dropWhile isLinkSpace

def failed (message : String) : Scan α := .error (.valueError message)

def isTargetCharacter (c : Char) : Bool := decide (0x21 ≤ c.toNat ∧ c.toNat ≤ 0x7E) && !isInvalidLinkTargetCharacter c

-- What stands between the angle brackets, from behind the first of them.
def linkTarget (position : Position) : Scan (List Char × Position) :=
  if '>' ∉ position then failed "unterminated Link target"
  else
    let target := position.takeWhile (· ≠ '>')
    if target = [] ∨ target.any (fun c => !isTargetCharacter c) then failed "invalid Link target"
    else .ok (target,(position.dropWhile (· ≠ '>')).drop 1)

def parameterName (position : Position) : Scan (List Char × Position) :=
  let position := skipWhitespace position
  let name := position.takeWhile isLinkTokenCharacter
  let position := position.dropWhile isLinkTokenCharacter
  if name = [] then failed "missing Link parameter name" else .ok (lower name,position)

def isControl (c : Char) : Bool := decide (c.toNat < 0x20) || decide (c.toNat = 0x7F)

-- The loop over a quoted value, with what it has read.
def quotedValue : Nat → Position → List Char → Scan (List Char × Position)
  | 0, _, _ => .error .endless
  | fuel + 1, position, parsed =>
    if position = [] then failed "unterminated Link quoted value"
    else (charAt position).bind fun c =>
      if c = '"' then .ok (parsed,position.drop 1)
      else
        let position := if c = '\\' then position.drop 1 else position
        if c = '\\' ∧ position = [] then failed "unterminated Link quoted value"
        else (charAt position).bind fun c =>
          if isControl c then failed "invalid Link quoted value" else quotedValue fuel (position.drop 1) (parsed ++ [c])

def tokenValue (position : Position) : Scan (List Char × Position) :=
  let value := position.takeWhile isLinkTokenCharacter
  if value = [] then failed "invalid Link parameter value" else .ok (value,position.dropWhile isLinkTokenCharacter)

def parameterValue (position : Position) : Scan (List Char × Position) :=
  let position := skipWhitespace position
  if position.head? ≠ some '=' then failed "missing Link parameter value"
  else
    let position := skipWhitespace (position.drop 1)
    if position = [] then failed "missing Link parameter value"
    else (charAt position).bind fun c =>
      if c = '"' then quotedValue (position.length + 1) (position.drop 1) [] else tokenValue position

abbrev Parameters := List (List Char × List Char)

-- The inner loop, with the parameters so far in the order of their assignment.
def parameters : Nat → Position → Parameters → Scan (Parameters × Position)
  | 0, _, _ => .error .endless
  | fuel + 1, position, found =>
    let position := skipWhitespace position
    if position = [] ∨ position.head? = some ',' then .ok (found,position)
    else (charAt position).bind fun c =>
      if c ≠ ';' then failed "malformed Link parameter separator"
      else (parameterName (position.drop 1)).bind fun name =>
        (parameterValue name.2).bind fun value =>
          if (found.map Prod.fst).contains name.1 then failed "duplicate Link parameter"
          else parameters fuel value.2 (found ++ [(name.1,value.1)])

abbrev Entry := List Char × Parameters

def entries : Nat → Position → List Entry → Scan (List Entry)
  | 0, _, _ => .error .endless
  | fuel + 1, position, found =>
    let position := skipWhitespace position
    if position.head? ≠ some '<' then failed "malformed Link target"
    else (linkTarget (position.drop 1)).bind fun target =>
      (parameters (target.2.length + 1) target.2 []).bind fun params =>
        let found := found ++ [(target.1,params.1)]
        if params.2 = [] then .ok found
        else
          let position := skipWhitespace (params.2.drop 1)
          if position = [] then failed "trailing Link separator" else entries fuel position found

-- `_parse_link_header`
def parseLinkHeader (value : List Char) : Scan (List Entry) := entries (value.length + 1) value []

section Totality

-- The scanner goes forward or raises its own error.
def Forward (from' : Position) (outcome : Scan (α × Position)) : Prop :=
  match outcome with
  | .ok result => result.2.length ≤ from'.length
  | .error e => ∃ message, e = .valueError message

theorem forward_failed (from' : Position) (message : String) : Forward from' (failed message : Scan (α × Position)) :=
  ⟨message,rfl⟩

theorem forward_bind {outcome : Scan (α × Position)} {next : α × Position → Scan (β × Position)} (first : Forward middle outcome)
    (later : ∀ result, result.2.length ≤ middle.length → Forward from' (next result)) : Forward from' (outcome.bind next) := by
  cases outcome with
  | error e => exact first
  | ok result => exact later result first

theorem skipWhitespace_length (position : Position) : (skipWhitespace position).length ≤ position.length :=
  (List.dropWhile_sublist _).length_le

theorem linkTarget_forward (position : Position) : Forward position (linkTarget position) := by
  unfold linkTarget
  split
  · exact forward_failed _ _
  · simp only
    split
    · exact forward_failed _ _
    · have skipped := (List.dropWhile_sublist (l := position) (fun c => decide (c ≠ '>'))).length_le
      simp only [Forward,List.length_drop]
      omega

theorem parameterName_forward (position : Position) : Forward position (parameterName position) := by
  simp only [parameterName]
  split
  · exact forward_failed _ _
  · have token := (List.dropWhile_sublist (l := skipWhitespace position) isLinkTokenCharacter).length_le
    exact token.trans (skipWhitespace_length position)

theorem quotedValue_forward (fuel : Nat) (position : Position) (parsed : List Char) (enough : position.length < fuel) :
    Forward position (quotedValue fuel position parsed) := by
  induction fuel generalizing position parsed with
  | zero => cases enough
  | succ fuel ih =>
    cases position with
    | nil => exact forward_failed _ _
    | cons c cs =>
      simp only [List.length_cons] at enough
      have next (d : Char) (rest : Position) (bound : rest.length ≤ cs.length) :
          Forward (c :: cs) (if isControl d then failed "invalid Link quoted value" else quotedValue fuel rest (parsed ++ [d])) := by
        split
        · exact forward_failed _ _
        · have step := ih rest (parsed ++ [d]) (by omega)
          cases outcome : quotedValue fuel rest (parsed ++ [d]) with
          | error e => rwa [outcome] at step
          | ok result =>
            rw [outcome] at step
            simp only [Forward,List.length_cons] at step ⊢
            omega
      by_cases mark : c = '"'
      · subst mark
        simp [quotedValue,charAt,Except.bind,Forward]
      · by_cases escape : c = '\\'
        · subst escape
          cases cs with
          | nil => simpa [quotedValue,charAt,Except.bind] using forward_failed _ _
          | cons d cs =>
            have step := next d cs (by simp)
            simpa [quotedValue,charAt,Except.bind] using step
        · have step := next c cs (Nat.le_refl _)
          simpa [quotedValue,charAt,Except.bind,mark,escape] using step

theorem Forward.weaken {outcome : Scan (α × Position)} (step : Forward middle outcome) (shorter : middle.length ≤ from'.length) :
    Forward from' outcome := by
  cases outcome with
  | error e => exact step
  | ok result => exact Nat.le_trans step shorter

theorem tokenValue_forward (position : Position) : Forward position (tokenValue position) := by
  simp only [tokenValue]
  split
  · exact forward_failed _ _
  · exact (List.dropWhile_sublist _).length_le

theorem parameterValue_forward (position : Position) : Forward position (parameterValue position) := by
  simp only [parameterValue]
  split
  · exact forward_failed _ _
  · rename_i equals
    have before := skipWhitespace_length position
    have after := skipWhitespace_length ((skipWhitespace position).drop 1)
    rw [List.length_drop] at after
    cases rest : skipWhitespace ((skipWhitespace position).drop 1) with
    | nil => exact forward_failed _ _
    | cons c cs =>
      rw [rest,List.length_cons] at after
      by_cases mark : c = '"'
      · subst mark
        have step := quotedValue_forward (cs.length + 2) cs [] (by omega)
        have whole : Forward position _ := step.weaken (by omega)
        simpa [charAt,Except.bind] using whole
      · have step : Forward position _ := (tokenValue_forward (c :: cs)).weaken (by rw [List.length_cons]; omega)
        simpa [charAt,Except.bind,mark] using step

theorem parameters_forward (fuel : Nat) (position : Position) (found : Parameters) (enough : position.length < fuel) :
    Forward position (parameters fuel position found) := by
  induction fuel generalizing position found with
  | zero => cases enough
  | succ fuel ih =>
    have skipped := skipWhitespace_length position
    simp only [parameters]
    cases rest : skipWhitespace position with
    | nil =>
      rw [if_pos (.inl rfl)]
      exact Nat.zero_le _
    | cons c cs =>
      rw [rest,List.length_cons] at skipped
      split
      · simp only [Forward,List.length_cons]
        omega
      · simp only [charAt,Except.bind,List.drop_succ_cons,List.drop_zero]
        split
        · exact forward_failed _ _
        · refine forward_bind (parameterName_forward cs) fun name shorter => ?_
          refine forward_bind (parameterValue_forward name.2) fun value shorter' => ?_
          split
          · exact forward_failed _ _
          · exact (ih value.2 _ (by omega)).weaken (by omega)

theorem entries_raise (fuel : Nat) (position : Position) (found : List Entry) (enough : position.length < fuel) (e : Fault)
    (raised : entries fuel position found = .error e) : ∃ message, e = .valueError message := by
  induction fuel generalizing position found with
  | zero => cases enough
  | succ fuel ih =>
    have skipped := skipWhitespace_length position
    simp only [entries] at raised
    split at raised
    · cases raised
      exact ⟨_,rfl⟩
    · have target := linkTarget_forward ((skipWhitespace position).drop 1)
      cases first : linkTarget ((skipWhitespace position).drop 1) with
      | error e =>
        rw [first] at raised target
        cases raised
        exact target
      | ok target' =>
        have params := parameters_forward (target'.2.length + 1) target'.2 [] (by omega)
        cases second : parameters (target'.2.length + 1) target'.2 [] with
        | error e =>
          simp only [first,second,Except.bind] at raised
          rw [second] at params
          cases raised
          exact params
        | ok params' =>
          rw [first] at target
          rw [second] at params
          simp only [Forward,List.length_drop] at target params
          simp only [first,second,Except.bind] at raised
          split at raised
          · cases raised
          · split at raised
            · cases raised
              exact ⟨_,rfl⟩
            · rename_i more _
              have later := skipWhitespace_length (params'.2.drop 1)
              rw [List.length_drop] at later
              have some' : 0 < params'.2.length := List.length_pos_iff.mpr more
              exact ih _ _ (by omega) raised

theorem parseLinkHeader_raise (value : List Char) (e : Fault) (raised : parseLinkHeader value = .error e) :
    ∃ message, e = .valueError message := entries_raise _ _ _ (by omega) _ raised

end Totality

-- The grammar of the header: what a list of links says and how it is written.
inductive Piece where
  | plain (c : Char)
  | escaped (c : Char)

namespace Piece

def text : Piece → List Char
  | plain c => [c]
  | escaped c => ['\\',c]

def char : Piece → Char
  | plain c => c
  | escaped c => c

-- A tab is text of a quoted string too.
def isQuotable (c : Char) : Bool := c = '\t' || !isControl c

def WellFormed : Piece → Prop
  | plain c => isQuotable c = true ∧ c ≠ '"' ∧ c ≠ '\\'
  | escaped c => isQuotable c = true

end Piece

def IsToken (text : List Char) : Prop := text ≠ [] ∧ ∀ c ∈ text, isLinkTokenCharacter c = true

def Blank (text : List Char) : Prop := ∀ c ∈ text, isLinkSpace c = true

inductive ValueSyntax where
  | token (text : List Char)
  | quoted (pieces : List Piece)

namespace ValueSyntax

def text : ValueSyntax → List Char
  | token text => text
  | quoted pieces => '"' :: (pieces.flatMap Piece.text ++ ['"'])

def value : ValueSyntax → List Char
  | token text => text
  | quoted pieces => pieces.map Piece.char

def WellFormed : ValueSyntax → Prop
  | token text => IsToken text
  | quoted pieces => ∀ piece ∈ pieces, piece.WellFormed

end ValueSyntax

structure ParameterSyntax where
  before : List Char
  after : List Char
  name : List Char
  beforeEquals : List Char
  afterEquals : List Char
  value : ValueSyntax

namespace ParameterSyntax
variable (p : ParameterSyntax)

def text : List Char :=
  p.before ++ ';' :: (p.after ++ (p.name ++ (p.beforeEquals ++ '=' :: (p.afterEquals ++ p.value.text))))

-- Names do not see case.
def parameter : List Char × List Char := (lower p.name,p.value.value)

structure WellFormed : Prop where
  before : Blank p.before
  after : Blank p.after
  name : IsToken p.name
  beforeEquals : Blank p.beforeEquals
  afterEquals : Blank p.afterEquals
  value : p.value.WellFormed

end ParameterSyntax

structure LinkSyntax where
  before : List Char
  target : List Char
  parameters : List ParameterSyntax
  after : List Char

namespace LinkSyntax
variable (link : LinkSyntax)

def text : List Char :=
  link.before ++ '<' :: (link.target ++ '>' :: (link.parameters.flatMap ParameterSyntax.text ++ link.after))

def entry : Entry := (link.target,link.parameters.map ParameterSyntax.parameter)

-- A reference is any text over the characters of one; it can be empty.
structure WellFormed : Prop where
  before : Blank link.before
  target : ∀ c ∈ link.target, isTargetCharacter c = true
  parameters : ∀ p ∈ link.parameters, p.WellFormed
  after : Blank link.after

-- What the subset leaves out: the empty reference, a tab in a quoted string and a
-- parameter named twice.
structure Supported : Prop where
  target : link.target ≠ []
  tabs : ∀ p ∈ link.parameters, '\t' ∉ p.value.value
  names : ((link.parameters.map ParameterSyntax.parameter).map Prod.fst).Nodup

end LinkSyntax

def headerText : List LinkSyntax → List Char
  | [] => []
  | [link] => link.text
  | link :: links => link.text ++ ',' :: headerText links

section RoundTrip

-- The text ends or goes on with a character that the loop stops at.
def Halts (kind : Char → Bool) (text : List Char) : Prop := ∀ c, text.head? = some c → kind c = false

theorem halts_cons {kind : Char → Bool} (stops : kind c = false) (text : List Char) : Halts kind (c :: text) := by
  intro d found
  cases found
  exact stops

theorem takeWhile_halts {kind : Char → Bool} {text rest : List Char} (all : ∀ c ∈ text, kind c = true) (halts : Halts kind rest) :
    (text ++ rest).takeWhile kind = text ∧ (text ++ rest).dropWhile kind = rest := by
  rw [List.takeWhile_append_of_pos all,List.dropWhile_append_of_pos all]
  cases rest with
  | nil => simp
  | cons c cs => simp [halts c rfl]

theorem skip_halts {blank rest : List Char} (all : Blank blank) (halts : Halts isLinkSpace rest) :
    skipWhitespace (blank ++ rest) = rest := (takeWhile_halts all halts).2

theorem space_token {c : Char} (space : isLinkSpace c = true) : isLinkTokenCharacter c = false := by
  simp only [isLinkSpace,Bool.or_eq_true,decide_eq_true_eq] at space
  rcases space with rfl | rfl <;> decide

theorem token_space {c : Char} (token : isLinkTokenCharacter c = true) : isLinkSpace c = false := by
  cases space : isLinkSpace c with
  | false => rfl
  | true =>
    rw [space_token space] at token
    cases token

-- A name or a value ends where blanks and a mark of the grammar follow.
theorem halts_blank {blank rest : List Char} (all : Blank blank) (halts : Halts isLinkTokenCharacter rest) :
    Halts isLinkTokenCharacter (blank ++ rest) := by
  intro c found
  cases blank with
  | nil => exact halts c found
  | cons d ds =>
    cases found
    exact space_token (all c (by simp))

theorem linkTarget_text {target : List Char} (all : ∀ c ∈ target, isTargetCharacter c = true) (some' : target ≠ []) (rest : List Char) :
    linkTarget (target ++ '>' :: rest) = .ok (target,rest) := by
  have plain : ∀ c ∈ target, decide (c ≠ '>') = true := by
    intro c member
    apply decide_eq_true
    rintro rfl
    exact absurd (all _ member) (by decide)
  obtain ⟨taken,dropped⟩ := takeWhile_halts plain (halts_cons (c := '>') (by decide) rest)
  have closed : '>' ∈ target ++ '>' :: rest := by simp
  have fit : target.any (fun c => !isTargetCharacter c) = false := by
    rw [List.any_eq_false]
    intro c member
    simp [all c member]
  simp only [linkTarget,closed,not_true_eq_false,if_false,taken,dropped,some',fit,Bool.false_eq_true,or_self,List.drop_succ_cons,
    List.drop_zero]

theorem quotedValue_text {pieces : List Piece} (formed : ∀ piece ∈ pieces, piece.WellFormed)
    (untabbed : '\t' ∉ pieces.map Piece.char) (fuel : Nat) (rest parsed : List Char) (enough : (pieces.flatMap Piece.text).length < fuel) :
    quotedValue fuel (pieces.flatMap Piece.text ++ '"' :: rest) parsed = .ok (parsed ++ pieces.map Piece.char,rest) := by
  induction pieces generalizing fuel parsed with
  | nil =>
    cases fuel with
    | zero => cases enough
    | succ fuel => simp [quotedValue,charAt,Except.bind]
  | cons piece pieces ih =>
    simp only [List.map_cons,List.mem_cons,not_or] at untabbed
    have later := fun fuel parsed => ih (fun other member => formed other (by simp [member])) untabbed.2 fuel parsed
    have here := formed piece (by simp)
    cases fuel with
    | zero => cases enough
    | succ fuel =>
      simp only [List.flatMap_cons,List.length_append] at enough
      have quotable (c : Char) (fit : Piece.isQuotable c = true) (other : '\t' ≠ c) : isControl c = false := by
        simpa [Piece.isQuotable,other.symm] using fit
      cases piece with
      | plain c =>
        obtain ⟨fit,mark,escape⟩ := here
        have solid := quotable c fit untabbed.1
        have rest' := later fuel (parsed ++ [c]) (by simp only [Piece.text,List.length_cons,List.length_nil] at enough; omega)
        simp only [List.flatMap_cons,Piece.text,List.cons_append,List.nil_append,quotedValue,charAt,Except.bind,mark,escape,
          solid,if_false,false_and,List.drop_succ_cons,List.drop_zero,Bool.false_eq_true,reduceCtorEq]
        rw [rest']
        simp [Piece.char]
      | escaped c =>
        have solid := quotable c here untabbed.1
        have rest' := later fuel (parsed ++ [c]) (by simp only [Piece.text,List.length_cons,List.length_nil] at enough; omega)
        simp only [List.flatMap_cons,Piece.text,List.cons_append,List.nil_append,quotedValue,charAt,Except.bind,
          solid,if_true,if_false,true_and,List.drop_succ_cons,List.drop_zero,Bool.false_eq_true,reduceCtorEq,
          show ('\\' = '"') = False by decide]
        rw [rest']
        simp [Piece.char]

theorem token_halts {name : List Char} (token : IsToken name) (rest : List Char) : Halts isLinkSpace (name ++ rest) := by
  obtain ⟨some',all⟩ := token
  cases name with
  | nil => exact absurd rfl some'
  | cons c cs => exact halts_cons (token_space (all c (by simp))) _

theorem parameterName_text {blank name rest : List Char} (all : Blank blank) (token : IsToken name)
    (halts : Halts isLinkTokenCharacter rest) : parameterName (blank ++ (name ++ rest)) = .ok (lower name,rest) := by
  obtain ⟨taken,dropped⟩ := takeWhile_halts token.2 halts
  simp only [parameterName,skip_halts all (token_halts token rest),taken,dropped,token.1,if_false]

theorem value_halts {value : ValueSyntax} (formed : value.WellFormed) (rest : List Char) :
    Halts isLinkSpace (value.text ++ rest) ∧ value.text ++ rest ≠ [] := by
  cases value with
  | token text =>
    refine ⟨token_halts formed rest,?_⟩
    simp [ValueSyntax.text,formed.1]
  | quoted pieces => exact ⟨halts_cons (by decide) _,by simp [ValueSyntax.text]⟩

theorem parameterValue_text {blank blank' : List Char} {value : ValueSyntax} (all : Blank blank) (all' : Blank blank')
    (formed : value.WellFormed) (untabbed : '\t' ∉ value.value) {rest : List Char} (halts : Halts isLinkTokenCharacter rest) :
    parameterValue (blank ++ '=' :: (blank' ++ (value.text ++ rest))) = .ok (value.value,rest) := by
  obtain ⟨start,nonempty⟩ := value_halts formed rest
  have equals := skip_halts all (halts_cons (c := '=') (by decide) (blank' ++ (value.text ++ rest)))
  have skipped := skip_halts all' start
  simp only [parameterValue,equals,List.head?_cons,List.drop_succ_cons,List.drop_zero,skipped,nonempty,ne_eq,not_true_eq_false,if_false]
  cases value with
  | token text =>
    obtain ⟨some',token⟩ := formed
    obtain ⟨taken,dropped⟩ := takeWhile_halts token halts
    cases text with
    | nil => exact absurd rfl some'
    | cons c cs =>
      have other : c ≠ '"' := by
        rintro rfl
        exact absurd (token '"' (by simp)) (by decide)
      simp only [ValueSyntax.text,ValueSyntax.value] at taken dropped ⊢
      simp only [List.cons_append] at taken dropped ⊢
      simp only [charAt,Except.bind,other,if_false,tokenValue,taken,dropped,reduceCtorEq]
  | quoted pieces =>
    have shape : (ValueSyntax.quoted pieces).text ++ rest = '"' :: (pieces.flatMap Piece.text ++ '"' :: rest) := by
      simp [ValueSyntax.text]
    have read := quotedValue_text formed untabbed ('"' :: (pieces.flatMap Piece.text ++ '"' :: rest)).length.succ rest [] (by
      simp only [List.length_cons,List.length_append]
      omega)
    rw [shape]
    simp only [charAt,Except.bind,if_true,List.drop_succ_cons,List.drop_zero]
    exact read

-- The inner loop stops before a comma or at the end.
theorem parameters_text {params : List ParameterSyntax} (formed : ∀ p ∈ params, p.WellFormed)
    (untabbed : ∀ p ∈ params, '\t' ∉ p.value.value) {after rest : List Char} (all : Blank after)
    (ends : rest = [] ∨ rest.head? = some ',') (fuel : Nat) (found : Parameters)
    (distinct : (found.map Prod.fst ++ (params.map ParameterSyntax.parameter).map Prod.fst).Nodup)
    (enough : params.length < fuel) :
    parameters fuel (params.flatMap ParameterSyntax.text ++ (after ++ rest)) found =
      .ok (found ++ params.map ParameterSyntax.parameter,rest) := by
  have space : Halts isLinkSpace rest := by
    intro c head
    rcases ends with rfl | comma
    · cases head
    · rw [comma] at head
      cases head
      rfl
  have token : Halts isLinkTokenCharacter rest := by
    intro c head
    rcases ends with rfl | comma
    · cases head
    · rw [comma] at head
      cases head
      rfl
  induction params generalizing fuel found with
  | nil =>
    cases fuel with
    | zero => cases enough
    | succ fuel => simp [parameters,skip_halts all space,ends]
  | cons p params ih =>
    cases fuel with
    | zero => cases enough
    | succ fuel =>
      simp only [List.length_cons] at enough
      simp only [List.map_cons] at distinct
      have here := formed p (by simp)
      obtain ⟨follows,followsDef⟩ : ∃ follows, follows = params.flatMap ParameterSyntax.text ++ (after ++ rest) := ⟨_,rfl⟩
      have halts : Halts isLinkTokenCharacter follows := by
        rw [followsDef]
        cases params with
        | nil =>
          rw [List.flatMap_nil,List.nil_append]
          exact halts_blank all token
        | cons next params =>
          have blank := (formed next (by simp)).before
          rw [List.flatMap_cons,ParameterSyntax.text,List.append_assoc,List.append_assoc]
          exact halts_blank blank (halts_cons (by decide) _)
      have shape : (p :: params).flatMap ParameterSyntax.text ++ (after ++ rest) =
          p.before ++ ';' :: (p.after ++ (p.name ++ (p.beforeEquals ++ '=' :: (p.afterEquals ++ (p.value.text ++ follows))))) := by
        rw [followsDef]
        simp [ParameterSyntax.text]
      have opened := skip_halts here.before (halts_cons (c := ';') (by decide)
        (p.after ++ (p.name ++ (p.beforeEquals ++ '=' :: (p.afterEquals ++ (p.value.text ++ follows))))))
      have equals : Halts isLinkTokenCharacter (p.beforeEquals ++ '=' :: (p.afterEquals ++ (p.value.text ++ follows))) :=
        halts_blank here.beforeEquals (halts_cons (by decide) _)
      have name := parameterName_text here.after here.name equals
      have value := parameterValue_text here.beforeEquals here.afterEquals here.value (untabbed p (by simp)) halts
      have fresh : lower p.name ∉ found.map Prod.fst := by
        intro member
        exact (List.nodup_append.mp distinct).2.2 _ member p.parameter.1 (by simp) rfl
      have later := ih (fun other member => formed other (by simp [member])) (fun other member => untabbed other (by simp [member]))
        fuel (found ++ [p.parameter]) (by simpa using distinct) (by omega)
      rw [←followsDef] at later
      rw [shape]
      simp only [parameters,opened,List.head?_cons,charAt,Except.bind,List.drop_succ_cons,List.drop_zero,name,value,reduceCtorEq,
        Option.some.injEq,ne_eq,not_true_eq_false,if_false,false_or,show (';' = ',') = False by decide]
      rw [if_neg (by simpa using fresh)]
      simpa [ParameterSyntax.parameter] using later

theorem parameters_length (params : List ParameterSyntax) : params.length ≤ (params.flatMap ParameterSyntax.text).length := by
  induction params with
  | nil => exact Nat.zero_le _
  | cons p params ih =>
    simp only [List.flatMap_cons,List.length_append,List.length_cons,ParameterSyntax.text]
    omega

-- One link, up to the comma behind it or the end.
theorem link_text {link : LinkSyntax} (formed : link.WellFormed) (supported : link.Supported) {rest : List Char}
    (ends : rest = [] ∨ rest.head? = some ',') :
    ∃ target params, skipWhitespace (link.text ++ rest) = '<' :: target ∧ linkTarget target = .ok (link.target,params) ∧
      parameters (params.length + 1) params [] = .ok (link.parameters.map ParameterSyntax.parameter,rest) := by
  refine ⟨link.target ++ '>' :: (link.parameters.flatMap ParameterSyntax.text ++ (link.after ++ rest)),_,?_,
    linkTarget_text formed.target supported.target _,?_⟩
  · simp only [LinkSyntax.text,List.append_assoc,List.cons_append]
    exact skip_halts formed.before (halts_cons (by decide) _)
  · have size := parameters_length link.parameters
    exact parameters_text formed.parameters supported.tabs formed.after ends _ [] (by simpa using supported.names)
      (by rw [List.length_append]; omega)

theorem skipWhitespace_again (position : Position) : skipWhitespace (skipWhitespace position) = skipWhitespace position :=
  List.dropWhile_idempotent _ _

theorem entries_skip (fuel : Nat) (position : Position) (found : List Entry) :
    entries fuel (skipWhitespace position) found = entries fuel position found := by
  cases fuel with
  | zero => rfl
  | succ fuel => simp only [entries,skipWhitespace_again]

theorem header_start {link : LinkSyntax} (formed : link.WellFormed) (links : List LinkSyntax) :
    ∃ position, skipWhitespace (headerText (link :: links)) = '<' :: position := by
  have start (rest : List Char) : ∃ position, skipWhitespace (link.text ++ rest) = '<' :: position := by
    refine ⟨link.target ++ '>' :: (link.parameters.flatMap ParameterSyntax.text ++ (link.after ++ rest)),?_⟩
    simp only [LinkSyntax.text,List.append_assoc,List.cons_append]
    exact skip_halts formed.before (halts_cons (by decide) _)
  cases links with
  | nil => simpa [headerText] using start []
  | cons next links => exact start _

theorem entries_text {links : List LinkSyntax} (formed : ∀ link ∈ links, link.WellFormed) (supported : ∀ link ∈ links, link.Supported)
    (some' : links ≠ []) (fuel : Nat) (found : List Entry) (enough : links.length ≤ fuel) :
    entries fuel (headerText links) found = .ok (found ++ links.map LinkSyntax.entry) := by
  induction links generalizing fuel found with
  | nil => exact absurd rfl some'
  | cons link links ih =>
    cases fuel with
    | zero => cases enough
    | succ fuel =>
      simp only [List.length_cons] at enough
      have here := formed link (by simp)
      have fit := supported link (by simp)
      cases links with
      | nil =>
        obtain ⟨target,params,opened,first,second⟩ := @link_text link here fit [] (.inl rfl)
        rw [List.append_nil] at opened
        simp only [entries,headerText,opened,List.head?_cons,List.drop_succ_cons,List.drop_zero,first,second,Except.bind,ne_eq,
          not_true_eq_false,if_false,if_true]
        rfl
      | cons next links =>
        obtain ⟨target,params,opened,first,second⟩ := @link_text link here fit (',' :: headerText (next :: links)) (.inr rfl)
        obtain ⟨position,start⟩ := header_start (formed next (by simp)) links
        have later := ih (fun other member => formed other (by simp [member])) (fun other member => supported other (by simp [member]))
          (by simp) fuel (found ++ [link.entry]) (by omega)
        rw [←entries_skip] at later
        simp only [entries,headerText,opened,List.head?_cons,List.drop_succ_cons,List.drop_zero,first,second,Except.bind,ne_eq,
          not_true_eq_false,if_false,reduceCtorEq]
        have more : skipWhitespace (headerText (next :: links)) ≠ [] := by
          rw [start]
          exact List.cons_ne_nil _ _
        rw [if_neg more]
        simpa [LinkSyntax.entry] using later

end RoundTrip

theorem header_length (links : List LinkSyntax) : links.length ≤ (headerText links).length := by
  have one (link : LinkSyntax) : 1 ≤ link.text.length := by
    simp only [LinkSyntax.text,List.length_append,List.length_cons]
    omega
  induction links with
  | nil => exact Nat.zero_le _
  | cons link links ih =>
    cases links with
    | nil => exact one link
    | cons next links =>
      simp only [headerText,List.length_append,List.length_cons] at ih ⊢
      omega

-- Every header of the supported links reads as what it says, however it is spaced,
-- quoted and escaped; and every text is read or refused with the scanner's own error.
theorem linkHeader_spec :
    (∀ links : List LinkSyntax, links ≠ [] → (∀ link ∈ links, link.WellFormed ∧ link.Supported) →
      parseLinkHeader (headerText links) = .ok (links.map LinkSyntax.entry)) ∧
    ∀ value, (∃ found, parseLinkHeader value = .ok found) ∨ ∃ message, parseLinkHeader value = .error (.valueError message) := by
  constructor
  · intro links some' fit
    have size := header_length links
    exact entries_text (fun link member => (fit link member).1) (fun link member => (fit link member).2) some' _ [] (by omega)
  · intro value
    cases outcome : parseLinkHeader value with
    | ok found => exact .inl ⟨found,rfl⟩
    | error e =>
      obtain ⟨message,rfl⟩ := parseLinkHeader_raise value e outcome
      exact .inr ⟨message,rfl⟩

-- A link whose parameters are all titles.
def titled (target : List Char) (titles : List (List Piece)) : LinkSyntax :=
  ⟨[],target,titles.map fun pieces => ⟨[],[],['t'],[],[],.quoted pieces⟩,[]⟩

theorem titled_formed {target : List Char} {titles : List (List Piece)} (all : ∀ c ∈ target, isTargetCharacter c = true)
    (formed : ∀ pieces ∈ titles, ∀ piece ∈ pieces, piece.WellFormed) : (titled target titles).WellFormed := by
  refine ⟨by simp [titled,Blank],all,fun p member => ?_,by simp [titled,Blank]⟩
  obtain ⟨pieces,inside,rfl⟩ := List.mem_map.mp member
  have title : ∀ c ∈ ['t'], isLinkTokenCharacter c = true := by decide
  exact ⟨by simp [Blank],by simp [Blank],⟨by simp,title⟩,by simp [Blank],by simp [Blank],formed pieces inside⟩

-- The empty reference, a tab between quotation marks, a repeated name and the empty list.
theorem unsupported_refused :
    ((titled [] []).WellFormed ∧ parseLinkHeader (titled [] []).text ≠ .ok [(titled [] []).entry]) ∧
    ((titled ['a'] [[.plain '\t']]).WellFormed ∧
      parseLinkHeader (titled ['a'] [[.plain '\t']]).text ≠ .ok [(titled ['a'] [[.plain '\t']]).entry]) ∧
    ((titled ['a'] [[],[]]).WellFormed ∧ parseLinkHeader (titled ['a'] [[],[]]).text ≠ .ok [(titled ['a'] [[],[]]).entry]) ∧
    parseLinkHeader (headerText []) ≠ .ok ([].map LinkSyntax.entry) := by
  refine ⟨⟨titled_formed (by simp) (by simp),by decide⟩,⟨titled_formed (by decide) ?_,by decide⟩,
    ⟨titled_formed (by decide) (by simp),by decide⟩,by decide⟩
  simp [Piece.WellFormed,Piece.isQuotable]

end LinkHeader
