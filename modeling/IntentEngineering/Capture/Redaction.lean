import IntentEngineering.Library.ByteText

namespace Redaction
open ByteText

def isAlphanumeric (c : Char) : Bool :=
  decide (48 ≤ c.toNat ∧ c.toNat ≤ 57) || decide (65 ≤ c.toNat ∧ c.toNat ≤ 90) || decide (97 ≤ c.toNat ∧ c.toNat ≤ 122)

-- The characters that `_SAFE_ENDPOINT_CHARACTER` leaves.
def safeEndpointCharacter (c : Char) : Bool := isAlphanumeric c || decide (c ∈ ['/','.','_','~','%',':','@','+','-'])

def safeRequestIdCharacter (c : Char) : Bool := isAlphanumeric c || decide (c ∈ [':','_','-'])

def maxEndpointLength : Nat := 160
def maxRequestIdLength : Nat := 64
def minCredentialFragmentLength : Nat := 12

def substitute (safe : Char → Bool) (value : List Char) : List Char := value.map fun c => if safe c then c else '_'

def sanitizeEndpointText (value : List Char) : List Char :=
  let sanitized := substitute safeEndpointCharacter value
  if sanitized.head? = some '/' then sanitized else '/' :: sanitized

def sanitizeEndpoint (value : List Char) : List Char := (sanitizeEndpointText value).take maxEndpointLength

def sanitizeRequestIdText (value : List Char) : List Char := substitute safeRequestIdCharacter (PyText.strip value)

def sanitizeRequestId (value : Option (List Char)) : Option (List Char) :=
  value.bind fun value =>
    let sanitized := (sanitizeRequestIdText value).take maxRequestIdLength
    if sanitized = [] then none else some sanitized

def isHexLetter (c : Char) : Bool :=
  decide (48 ≤ c.toNat ∧ c.toNat ≤ 57) || decide (65 ≤ c.toNat ∧ c.toNat ≤ 70) || decide (97 ≤ c.toNat ∧ c.toNat ≤ 102)

-- `str.casefold` on a run of hexadecimal digits.
def casefold (run : List Char) : List Char :=
  run.map fun c => if 65 ≤ c.toNat ∧ c.toNat ≤ 70 then Char.ofNat (c.toNat + 32) else c

-- `_HEX_ENCODED_RUN.finditer`
def hexRuns (candidate : List Char) : List (List Char) :=
  (candidate.splitOnP fun c => !isHexLetter c).filter (· ≠ [])

def hasMeaningfulOverlap (candidate secretVariant : List Char) : Bool :=
  if secretVariant <:+: candidate then true
  else if candidate.length < minCredentialFragmentLength ∨ secretVariant.length < minCredentialFragmentLength then false
  else (List.range (secretVariant.length - minCredentialFragmentLength + 1)).any fun index =>
    decide ((secretVariant.drop index).take minCredentialFragmentLength <:+: candidate)

def hasCaseInsensitiveHexOverlap (candidate secretHex : List Char) : Bool :=
  (hexRuns candidate).any fun run => hasMeaningfulOverlap (casefold run) secretHex

section Overlap
variable (sanitizer : List Char → List Char)

def fullCandidates (value : List Char) : List (List Char) := [PyText.strip value,sanitizer value]

def secretVariants (secret : List Char) : List (List Char) :=
  [secret,sanitizer secret,base64 (Utf8.encode secret),hex (Utf8.encode secret)]

def valueOverlapsSecret (value secret : List Char) (maxLength : Option Nat) : Bool :=
  let variants := secretVariants sanitizer secret
  let candidates := fullCandidates sanitizer value
  let shortened := match maxLength with
    | some limit => candidates.map (List.take limit)
    | none => candidates
  (candidates.any fun candidate => candidate ≠ [] && hasCaseInsensitiveHexOverlap candidate (hex (Utf8.encode secret))) ||
  (candidates.any fun candidate => variants.any fun variant =>
    candidate ≠ [] && variant ≠ [] && decide (variant <:+: candidate)) ||
  (shortened.any fun candidate => variants.any fun variant =>
    candidate ≠ [] && variant ≠ [] && hasMeaningfulOverlap candidate variant)

end Overlap

def requestIdOverlapsSecret (value secret : List Char) : Bool :=
  valueOverlapsSecret sanitizeRequestIdText value secret (some maxRequestIdLength)

def endpointOverlapsSecret (value secret : List Char) : Bool :=
  valueOverlapsSecret sanitizeEndpointText value secret (some maxEndpointLength)

-- Material of the provider is looked through whole.
def providerValueOverlapsSecret (value secret : List Char) : Bool :=
  valueOverlapsSecret sanitizeRequestIdText value secret none

def providerKeyOverlapsSecret (value secret : List Char) : Bool :=
  valueOverlapsSecret sanitizeRequestIdText value secret none

-- `GitHubClient._safe_request_id`, with the secret of its authorization header.
def safeRequestId (secret : Option (List Char)) (value : Option (List Char)) : Option (List Char) :=
  match value,secret with
  | some text,some known => if requestIdOverlapsSecret text known then none else sanitizeRequestId value
  | _,_ => sanitizeRequestId value

def redacted : List Char := ['/','r','e','d','a','c','t','e','d']

def safeEndpoint (secret : Option (List Char)) (value : List Char) : List Char :=
  match secret with
  | some known => if endpointOverlapsSecret value known then redacted else sanitizeEndpoint value
  | none => sanitizeEndpoint value

-- A fragment of a form of the secret that the text shows.
def Shows (variant text : List Char) : Prop :=
  ∃ fragment, minCredentialFragmentLength ≤ fragment.length ∧ fragment <:+: variant ∧ fragment <:+: text

-- The same for hexadecimal digits in either case.
def ShowsHex (secretHex text : List Char) : Prop :=
  ∃ fragment, minCredentialFragmentLength ≤ fragment.length ∧ casefold fragment <:+: secretHex ∧ fragment <:+: text

section Fragments

theorem infix_window {fragment whole : List Char} (long : k ≤ fragment.length) (inside : fragment <:+: whole) :
    ∃ index, index + k ≤ whole.length ∧ (whole.drop index).take k = fragment.take k := by
  obtain ⟨before,after,rfl⟩ := inside
  refine ⟨before.length,by simp only [List.length_append]; omega,?_⟩
  rw [List.append_assoc,List.drop_left,List.take_append_of_le_length long]

-- Every long fragment has a window in it, and a window is what is looked for.
theorem shows_overlap {candidate variant : List Char} (shows' : Shows variant candidate) :
    hasMeaningfulOverlap candidate variant = true := by
  obtain ⟨fragment,long,inside,shown⟩ := shows'
  obtain ⟨index,bound,window⟩ := infix_window long inside
  have enough := shown.length_le
  unfold hasMeaningfulOverlap
  split
  · rfl
  · rw [if_neg (by omega),List.any_eq_true]
    refine ⟨index,List.mem_range.mpr (by omega),decide_eq_true ?_⟩
    rw [window]
    exact (List.take_prefix _ _).isInfix.trans shown

theorem prefix_run {p : Char → Bool} {run cs : List Char} (all : ∀ c ∈ run, p c = false) (inside : run <+: cs) :
    ∃ first rest, cs.splitOnP p = first :: rest ∧ run <+: first := by
  induction run generalizing cs with
  | nil =>
    cases parts : cs.splitOnP p with
    | nil => exact absurd parts (List.splitOnP_ne_nil _ _)
    | cons first rest => exact ⟨first,rest,rfl,List.nil_prefix⟩
  | cons c run ih =>
    obtain ⟨after,rfl⟩ := inside
    obtain ⟨first,rest,parts,found⟩ := @ih (run ++ after) (fun d member => all d (by simp [member])) (List.prefix_append _ _)
    refine ⟨c :: first,rest,?_,List.cons_prefix_cons.mpr ⟨rfl,found⟩⟩
    simp [List.splitOnP_cons_eq_if_modifyHead,all c (by simp),parts]

theorem infix_run {p : Char → Bool} {run cs : List Char} (all : ∀ c ∈ run, p c = false) (inside : run <:+: cs) :
    ∃ part ∈ cs.splitOnP p, run <:+: part := by
  induction cs with
  | nil => exact ⟨[],by simp,inside⟩
  | cons c cs ih =>
    rcases List.infix_cons_iff.mp inside with start | later
    · obtain ⟨first,rest,parts,found⟩ := prefix_run all start
      exact ⟨first,by simp [parts],found.isInfix⟩
    · obtain ⟨part,member,found⟩ := ih later
      rw [List.splitOnP_cons_eq_if_modifyHead]
      split
      · exact ⟨part,by simp [member],found⟩
      · cases parts : cs.splitOnP p with
        | nil => exact absurd parts (List.splitOnP_ne_nil _ _)
        | cons first rest =>
          rw [parts] at member
          rcases List.mem_cons.mp member with rfl | rest
          · exact ⟨c :: part,by simp,found.trans (List.suffix_cons _ _).isInfix⟩
          · exact ⟨part,by simp [rest],found⟩

theorem casefold_length (run : List Char) : (casefold run).length = run.length := by simp [casefold]

theorem infix_casefold {fragment run : List Char} (inside : fragment <:+: run) : casefold fragment <:+: casefold run := by
  obtain ⟨before,after,rfl⟩ := inside
  exact ⟨casefold before,casefold after,by simp [casefold]⟩

theorem hexDigit_letter (small : d < 16) : isHexLetter (Sha256.hexDigit d) = true := by
  have each : ∀ d < 16, isHexLetter (Sha256.hexDigit d) = true := by decide
  exact each d small

theorem hex_letters (bytes : Utf8.Bytes) : ∀ c ∈ hex bytes, isHexLetter c = true := by
  intro c member
  obtain ⟨b,_,digit⟩ := List.mem_flatMap.mp member
  have bound : b.toNat < 256 := b.toNat_lt
  simp only [List.mem_cons,List.not_mem_nil,or_false] at digit
  rcases digit with rfl | rfl
  · exact hexDigit_letter (by omega)
  · exact hexDigit_letter (by omega)

-- A character that folds to a hexadecimal digit is one.
theorem folded_letter {fragment : List Char} (folded : ∀ c ∈ casefold fragment, isHexLetter c = true) :
    ∀ c ∈ fragment, isHexLetter c = true := by
  intro c member
  have here := folded _ (List.mem_map_of_mem member)
  by_cases upper : 65 ≤ c.toNat ∧ c.toNat ≤ 70
  · simp [isHexLetter,upper]
  · simpa [upper] using here

theorem showsHex_overlap {candidate : List Char} {bytes : Utf8.Bytes} (shown : ShowsHex (hex bytes) candidate) :
    hasCaseInsensitiveHexOverlap candidate (hex bytes) = true := by
  obtain ⟨fragment,long,inside,there⟩ := shown
  have letters := folded_letter fun c member => hex_letters bytes c (inside.mem member)
  obtain ⟨run,member,found⟩ := infix_run (p := fun c => !isHexLetter c) (fun c inside => by simp [letters c inside]) there
  have nonempty : run ≠ [] := by
    rintro rfl
    have short := found.length_le
    rw [List.length_nil] at short
    have least : minCredentialFragmentLength = 12 := rfl
    omega
  rw [hasCaseInsensitiveHexOverlap,List.any_eq_true]
  refine ⟨run,List.mem_filter.mpr ⟨member,by simpa using nonempty⟩,shows_overlap ?_⟩
  exact ⟨casefold fragment,by rwa [casefold_length],inside,infix_casefold found⟩

end Fragments

section Strip

-- White space at neither end.
def Trimmed (form : List Char) : Prop :=
  (∀ c, form.head? = some c → PyText.isSpace c = false) ∧ ∀ c, form.getLast? = some c → PyText.isSpace c = false

theorem infix_dropWhile {p : Char → Bool} {form value : List Char} (first : ∀ c, form.head? = some c → p c = false)
    (inside : form <:+: value) : form <:+: value.dropWhile p := by
  obtain ⟨before,after,rfl⟩ := inside
  cases form with
  | nil => exact List.nil_infix
  | cons c cs =>
    rw [List.append_assoc,List.dropWhile_append]
    split
    · rw [List.cons_append,List.dropWhile_cons_of_neg (by simp [first c rfl])]
      exact (List.prefix_append (c :: cs) after).isInfix
    · exact ⟨before.dropWhile p,after,by simp⟩

-- Such text stays where white space is stripped.
theorem infix_strip {form value : List Char} (trimmed : Trimmed form) (inside : form <:+: value) :
    form <:+: PyText.strip value := by
  have front := infix_dropWhile trimmed.1 inside
  have last : ∀ c, form.reverse.head? = some c → PyText.isSpace c = false := by
    intro c found
    rw [List.head?_reverse] at found
    exact trimmed.2 c found
  have back := (infix_dropWhile last front.reverse).reverse
  rwa [List.reverse_reverse] at back

theorem trimmed_solid {form : List Char} (solid : ∀ c ∈ form, PyText.isSpace c = false) : Trimmed form :=
  ⟨fun c found => solid c (List.mem_of_head? found),fun c found => solid c (List.mem_of_getLast? found)⟩

theorem visible_solid {c : Char} (low : 32 < c.toNat) (high : c.toNat < 127) : PyText.isSpace c = false := by
  have wide : c.toNat ∉ [0x85,0xa0,0x1680,0x2028,0x2029,0x202f,0x205f,0x3000] := by
    simp only [List.mem_cons,List.not_mem_nil,or_false]
    omega
  simp only [PyText.isSpace,wide,decide_false,Bool.or_false,Bool.or_eq_false_iff,decide_eq_false_iff_not]
  omega

theorem alphanumeric_solid {c : Char} (found : isAlphanumeric c = true) : PyText.isSpace c = false := by
  simp only [isAlphanumeric,Bool.or_eq_true,decide_eq_true_eq] at found
  exact visible_solid (by omega) (by omega)

theorem safe_solid {marks : List Char} (visible : ∀ c ∈ marks, PyText.isSpace c = false)
    (safe : (isAlphanumeric c || decide (c ∈ marks)) = true) : PyText.isSpace c = false := by
  rcases Bool.or_eq_true_iff.mp safe with plain | mark
  · exact alphanumeric_solid plain
  · exact visible c (by simpa using mark)

theorem substitute_solid {safe : Char → Bool} (solid : ∀ c, safe c = true → PyText.isSpace c = false) (value : List Char) :
    ∀ c ∈ substitute safe value, PyText.isSpace c = false := by
  intro c member
  obtain ⟨d,_,rfl⟩ := List.mem_map.mp member
  split
  · rename_i kept
    exact solid d kept
  · rfl

theorem sanitizeRequestIdText_solid (value : List Char) : ∀ c ∈ sanitizeRequestIdText value, PyText.isSpace c = false :=
  substitute_solid (fun _ => safe_solid (by decide)) _

theorem sanitizeEndpointText_solid (value : List Char) : ∀ c ∈ sanitizeEndpointText value, PyText.isSpace c = false := by
  have plain := substitute_solid (fun c => @safe_solid c ['/','.','_','~','%',':','@','+','-'] (by decide)) value
  intro c member
  simp only [sanitizeEndpointText] at member
  split at member
  · exact plain c member
  · rcases List.mem_cons.mp member with rfl | later
    · rfl
    · exact plain c later

end Strip

section Overlap
variable {sanitizer : List Char → List Char} {value secret : List Char} {limit : Nat}

-- What a cleared value shows once it is sanitized and cut.
theorem cleared_hides (cleared : valueOverlapsSecret sanitizer value secret (some limit) = false) :
    (∀ variant ∈ secretVariants sanitizer secret, ¬Shows variant ((sanitizer value).take limit)) ∧
    ¬ShowsHex (hex (Utf8.encode secret)) ((sanitizer value).take limit) := by
  simp only [valueOverlapsSecret,Bool.or_eq_false_iff] at cleared
  obtain ⟨⟨hexadecimal,_⟩,windows⟩ := cleared
  have least : minCredentialFragmentLength = 12 := rfl
  constructor
  · intro variant member shown
    obtain ⟨fragment,long,inside,there⟩ := shown
    have candidate : (sanitizer value).take limit ≠ [] := there.ne_nil (by rintro rfl; simp at long; omega)
    have form : variant ≠ [] := inside.ne_nil (by rintro rfl; simp at long; omega)
    have overlap := shows_overlap ⟨fragment,long,inside,there⟩
    have found := List.any_eq_false.mp windows ((sanitizer value).take limit) (by simp [fullCandidates])
    refine found (List.any_eq_true.mpr ⟨variant,member,?_⟩)
    simp [candidate,form,overlap]
  · intro shown
    obtain ⟨fragment,long,inside,there⟩ := shown
    have whole : fragment <:+: sanitizer value := there.trans (List.take_prefix _ _).isInfix
    have candidate : sanitizer value ≠ [] := whole.ne_nil (by rintro rfl; simp at long; omega)
    have overlap := showsHex_overlap ⟨fragment,long,inside,whole⟩
    have found := List.any_eq_false.mp hexadecimal (sanitizer value) (by simp [fullCandidates])
    exact found (by simp [candidate,overlap])

theorem whole_flagged {variant : List Char} (member : variant ∈ secretVariants sanitizer secret) (nonempty : variant ≠ [])
    (trimmed : Trimmed variant) (inside : variant <:+: value) (limit : Option Nat) :
    valueOverlapsSecret sanitizer value secret limit = true := by
  have found := infix_strip trimmed inside
  have candidate : PyText.strip value ≠ [] := found.ne_nil nonempty
  simp only [valueOverlapsSecret,Bool.or_eq_true]
  refine .inl (.inr (List.any_eq_true.mpr ⟨PyText.strip value,by simp [fullCandidates],?_⟩))
  exact List.any_eq_true.mpr ⟨variant,member,by simp [candidate,nonempty,found]⟩

-- Only the secret itself can have white space at its ends.
theorem variant_trimmed (solid : ∀ c ∈ sanitizer secret, PyText.isSpace c = false) {variant : List Char}
    (member : variant ∈ secretVariants sanitizer secret) (raw : variant = secret → Trimmed secret) : Trimmed variant := by
  simp only [secretVariants,List.mem_cons,List.not_mem_nil,or_false] at member
  rcases member with rfl | rfl | rfl | rfl
  · exact raw rfl
  · exact trimmed_solid solid
  · exact trimmed_solid (base64_solid _)
  · exact trimmed_solid (hex_solid _)

end Overlap

section Fields
variable (value secret : List Char)

-- No form of the secret shows a long fragment in the text.
def Hidden (sanitizer : List Char → List Char) (text : List Char) : Prop :=
  (∀ variant ∈ secretVariants sanitizer secret, ¬Shows variant text) ∧ ¬ShowsHex (hex (Utf8.encode secret)) text

theorem endpoint_hidden (cleared : endpointOverlapsSecret value secret = false) :
    Hidden secret sanitizeEndpointText (sanitizeEndpoint value) := cleared_hides cleared

theorem requestId_hidden (cleared : requestIdOverlapsSecret value secret = false) {text : List Char}
    (shown : sanitizeRequestId (some value) = some text) : Hidden secret sanitizeRequestIdText text := by
  simp only [sanitizeRequestId,Option.bind_some] at shown
  split at shown
  · cases shown
  · cases shown
    exact cleared_hides cleared

theorem redacted_hidden (sanitizer : List Char → List Char) : Hidden secret sanitizer redacted := by
  have short : redacted.length < minCredentialFragmentLength := by decide
  constructor
  · intro _ _ shown
    obtain ⟨_,long,_,there⟩ := shown
    have bound := there.length_le
    omega
  · intro shown
    obtain ⟨_,long,_,there⟩ := shown
    have bound := there.length_le
    omega

-- What the client shows of an endpoint and of a request id, whatever they are, and
-- which values the two checks flag.
theorem redaction_spec :
    (endpointOverlapsSecret value secret = false → Hidden secret sanitizeEndpointText (sanitizeEndpoint value)) ∧
    (requestIdOverlapsSecret value secret = false →
      ∀ text, sanitizeRequestId (some value) = some text → Hidden secret sanitizeRequestIdText text) ∧
    Hidden secret sanitizeEndpointText (safeEndpoint (some secret) value) ∧
    (∀ text, safeRequestId (some secret) (some value) = some text → Hidden secret sanitizeRequestIdText text) ∧
    (∀ variant ∈ secretVariants sanitizeEndpointText secret, variant ≠ [] → (variant = secret → Trimmed secret) →
      variant <:+: value → endpointOverlapsSecret value secret = true) ∧
    (∀ variant ∈ secretVariants sanitizeRequestIdText secret, variant ≠ [] → (variant = secret → Trimmed secret) →
      variant <:+: value → requestIdOverlapsSecret value secret = true) := by
  refine ⟨endpoint_hidden value secret,fun cleared _ => requestId_hidden value secret cleared,?_,?_,?_,?_⟩
  · unfold safeEndpoint
    cases checked : endpointOverlapsSecret value secret with
    | true => simpa [checked] using redacted_hidden secret sanitizeEndpointText
    | false => simpa [checked] using endpoint_hidden value secret checked
  · intro text shown
    cases checked : requestIdOverlapsSecret value secret with
    | true => simp [safeRequestId,checked] at shown
    | false =>
      simp only [safeRequestId,checked] at shown
      exact requestId_hidden value secret checked shown
  · intro variant member nonempty raw inside
    exact whole_flagged member nonempty (variant_trimmed (sanitizeEndpointText_solid secret) member raw) inside _
  · intro variant member nonempty raw inside
    exact whole_flagged member nonempty (variant_trimmed (sanitizeRequestIdText_solid secret) member raw) inside _

end Fields

-- A secret that ends in white space, whole in an endpoint that has nothing after it;
-- and the empty secret, which is part of everything.
theorem untrimmed_unflagged :
    ¬(∀ value secret, ∀ variant ∈ secretVariants sanitizeEndpointText secret, variant <:+: value →
      endpointOverlapsSecret value secret = true) ∧
    ¬(∀ value secret, ∀ variant ∈ secretVariants sanitizeRequestIdText secret, variant <:+: value →
      requestIdOverlapsSecret value secret = true) := by
  constructor
  · intro claimed
    have flagged := claimed ['x','a','b','c',' '] ['a','b','c',' '] ['a','b','c',' '] (by simp [secretVariants]) (by decide)
    exact absurd flagged (by decide)
  · intro claimed
    have flagged := claimed ['x'] [] [] (by simp [secretVariants]) (by decide)
    exact absurd flagged (by decide)

end Redaction
