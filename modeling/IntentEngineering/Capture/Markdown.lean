import IntentEngineering.Library.JsonAscii
import IntentEngineering.Library.JsonDialect
import IntentEngineering.Library.Keyed
import IntentEngineering.Library.Sha256
import IntentEngineering.Models.Mutations

namespace Markdown
open Json Keyed

abbrev Manifest := List (String × String)

def manifestCursorPrefix : List Char := ['m','a','r','k','d','o','w','n',':','v','1',':']

def payload (manifest : Manifest) : Json :=
  .obj [("files",.arr (manifest.map fun entry => .arr [.str entry.1,.str entry.2]))]

-- `_manifest_cursor`
def manifestCursor (manifest : Manifest) : String := String.ofList (manifestCursorPrefix ++ asciiText (payload manifest))

-- `PurePosixPath`: its root and the names after it.
structure PurePosixPath where
  root : List Char
  tail : List (List Char)

-- Two slashes at the start, and no third, are a root of their own.
def splitRoot : List Char → List Char × List Char
  | '/' :: '/' :: '/' :: cs => (['/'],'/' :: '/' :: cs)
  | '/' :: '/' :: cs => (['/','/'],cs)
  | '/' :: cs => (['/'],cs)
  | cs => ([],cs)

namespace PurePosixPath

def parse (path : List Char) : PurePosixPath where
  root := (splitRoot path).1
  tail := ((splitRoot path).2.splitOn '/').filter fun name => name ≠ [] ∧ name ≠ ['.']

variable (p : PurePosixPath)

def isAbsolute : Bool := p.root ≠ []

def parts : List (List Char) := if p.root = [] then p.tail else p.root :: p.tail

def asPosix : List Char :=
  if p.root = [] ∧ p.tail = [] then ['.'] else p.root ++ ['/'].intercalate p.tail

end PurePosixPath

def validManifestPath (path : List Char) : Bool :=
  let relative := PurePosixPath.parse path
  decide (path ≠ ['.']) && decide (Char.ofNat 0 ∉ path) && !relative.isAbsolute &&
    decide (['.','.'] ∉ relative.parts) && decide (relative.asPosix = path)

-- `_CONTENT_VERSION`
def contentVersion : String → Bool := isHash

-- The loop over the listed files, with the path before.
def readFiles : Option String → List Json → Option Manifest
  | _, [] => some []
  | previous, .arr [.str path,.str version] :: files =>
    if validManifestPath path.toList && contentVersion version && !(previous.any fun last => decide (path ≤ last)) then
      (readFiles (some path) files).map fun entries => (path,version) :: entries
    else none
  | _, _ => none

-- `_parse_manifest_cursor`. A key that is listed twice counts as its last value.
def parseManifestCursor : Option String → Option Manifest
  | none => none
  | some cursor =>
    if manifestCursorPrefix.isPrefixOf cursor.toList then
      match loads plainDialect (cursor.toList.drop manifestCursorPrefix.length) with
      | some (.obj members) =>
        match members.lookup "files" with
        | some (.arr files) =>
          (readFiles none files).bind fun entries => if manifestCursor entries = cursor then some entries else none
        | _ => none
      | _ => none
    else none

end Markdown

-- The workspace validator's own reading of the same cursor.
namespace WorkspaceValidation
open Json Markdown

inductive CursorError where
  | notManifest
  | undecodable
  | invalidManifest
  | notList
  | noncanonical
deriving DecidableEq

-- `_SHA256`
def sha256Pattern : String → Bool := isHash

def admissiblePath (path : List Char) : Bool :=
  decide (path ≠ []) && decide (path.head? ≠ some '/') && decide (Char.ofNat 0 ∉ path) &&
    (path.splitOn '/').all fun part => decide (part ∉ [[],['.'],['.','.']])

def readItems : Option String → List Json → Except CursorError Manifest
  | _, [] => .ok []
  | previous, .arr [.str path,.str version] :: items =>
    if admissiblePath path.toList && sha256Pattern version && !(previous.any fun last => decide (path ≤ last)) then
      (readItems (some path) items).map fun entries => (path,version) :: entries
    else .error .invalidManifest
  | _, _ => .error .invalidManifest

-- `_parse_markdown_cursor`
def parseMarkdownCursor (cursor : String) : Except CursorError Manifest :=
  if manifestCursorPrefix.isPrefixOf cursor.toList then
    match loads strictDialect (cursor.toList.drop manifestCursorPrefix.length) with
    | none => .error .undecodable
    | some (.obj [("files",files)]) =>
      match files with
      | .arr items =>
        (readItems none items).bind fun entries =>
          if cursor = manifestCursor entries then .ok entries else .error .noncanonical
      | _ => .error .notList
    | some _ => .error .invalidManifest
  else .error .notManifest

end WorkspaceValidation

namespace Markdown
open Json Keyed WorkspaceValidation

theorem splitRoot_relative {path : List Char} (relative : path.head? ≠ some '/') : splitRoot path = ([],path) := by
  unfold splitRoot
  split <;> simp_all

theorem splitRoot_absolute (cs : List Char) : (splitRoot ('/' :: cs)).1 ≠ [] := by
  unfold splitRoot
  split <;> simp_all

-- Both readings of a path are that no name of it is empty, `.` or `..`.
def Relative (path : List Char) : Prop :=
  Char.ofNat 0 ∉ path ∧ ∀ name ∈ path.splitOn '/', name ≠ [] ∧ name ≠ ['.'] ∧ name ≠ ['.','.']

theorem relative_head {path : List Char} (relative : Relative path) : path ≠ [] ∧ path.head? ≠ some '/' := by
  obtain ⟨_,names⟩ := relative
  constructor
  · rintro rfl
    exact (names [] (by simp)).1 rfl
  · intro absolute
    cases path with
    | nil => cases absolute
    | cons c cs =>
      cases absolute
      have first := @List.splitOn_append_cons_self_of_not_mem _ [] _ _ '/' (by simp) cs
      rw [List.nil_append] at first
      exact (names [] (by simp [first])).1 rfl

theorem admissiblePath_iff (path : List Char) : admissiblePath path = true ↔ Relative path := by
  constructor
  · intro admissible
    simp only [admissiblePath,Bool.and_eq_true,decide_eq_true_eq,List.all_eq_true,List.mem_cons,List.not_mem_nil,or_false,
      not_or] at admissible
    exact ⟨admissible.1.2,admissible.2⟩
  · intro relative
    obtain ⟨nonempty,head⟩ := relative_head relative
    simp only [admissiblePath,Bool.and_eq_true,decide_eq_true_eq,List.all_eq_true,List.mem_cons,List.not_mem_nil,or_false,
      not_or]
    exact ⟨⟨⟨nonempty,head⟩,relative.1⟩,relative.2⟩

theorem splitOn_plain {path name : List Char} (member : name ∈ path.splitOn '/') : '/' ∉ name := by
  induction path generalizing name with
  | nil =>
    rw [List.splitOn_nil,List.mem_singleton] at member
    simp [member]
  | cons c cs ih =>
    rw [List.splitOn_cons_eq_if_modifyHead] at member
    split at member
    · rcases List.mem_cons.mp member with same | later
      · simp [same]
      · exact ih later
    · rename_i other
      cases split : cs.splitOn '/' with
      | nil => exact absurd split (List.splitOn_ne_nil _ _)
      | cons first rest =>
        rw [split,List.modifyHead_cons] at member
        rcases List.mem_cons.mp member with same | later
        · rw [same]
          have plain : '/' ∉ first := ih (by rw [split]; simp)
          have different : c ≠ '/' := by simpa using other
          simp [plain,different.symm]
        · exact ih (by rw [split]; simp [later])

theorem parse_relative {path : List Char} (head : path.head? ≠ some '/') :
    PurePosixPath.parse path = ⟨[],(path.splitOn '/').filter fun name => name ≠ [] ∧ name ≠ ['.']⟩ := by
  simp only [PurePosixPath.parse,splitRoot_relative head]

theorem validManifestPath_iff (path : List Char) : validManifestPath path = true ↔ Relative path := by
  constructor
  · intro valid
    simp only [validManifestPath,Bool.and_eq_true,Bool.not_eq_true',decide_eq_true_eq] at valid
    obtain ⟨⟨⟨⟨here,null⟩,relative⟩,parent⟩,same⟩ := valid
    have head : path.head? ≠ some '/' := by
      intro absolute
      cases path with
      | nil => cases absolute
      | cons c cs =>
        cases absolute
        simp [PurePosixPath.isAbsolute,PurePosixPath.parse,splitRoot_absolute] at relative
    rw [parse_relative head] at parent same
    have listed : (path.splitOn '/').filter (fun name => name ≠ [] ∧ name ≠ ['.']) ≠ [] := by
      intro empty
      rw [empty] at same
      exact here same.symm
    simp only [PurePosixPath.asPosix,listed,and_false,if_false,List.nil_append] at same
    have names := List.splitOn_intercalate '/' (fun name member => splitOn_plain (List.mem_of_mem_filter member)) listed
    rw [same] at names
    refine ⟨null,fun name member => ?_⟩
    simp only [PurePosixPath.parts,if_true] at parent
    rw [names] at member
    have kept := List.of_mem_filter member
    simp only [decide_eq_true_eq] at kept
    refine ⟨kept.1,kept.2,?_⟩
    rintro rfl
    exact parent member
  · intro relative
    obtain ⟨nonempty,head⟩ := relative_head relative
    obtain ⟨null,names⟩ := relative
    have kept : (path.splitOn '/').filter (fun name => name ≠ [] ∧ name ≠ ['.']) = path.splitOn '/' := by
      refine List.filter_eq_self.mpr fun name member => ?_
      have solid := names name member
      simp [solid.1,solid.2.1]
    have here : path ≠ ['.'] := by
      rintro rfl
      exact (names ['.'] (by decide)).2.1 rfl
    have parent : ['.','.'] ∉ path.splitOn '/' := fun member => (names _ member).2.2 rfl
    have shape : PurePosixPath.parse path = ⟨[],path.splitOn '/'⟩ := by rw [parse_relative head,kept]
    simp [validManifestPath,PurePosixPath.isAbsolute,PurePosixPath.parts,PurePosixPath.asPosix,shape,here,null,parent,
      List.splitOn_ne_nil,List.intercalate_splitOn]

theorem paths_agree (path : List Char) : validManifestPath path = admissiblePath path := by
  rw [Bool.eq_iff_iff,validManifestPath_iff,admissiblePath_iff]

theorem loops_agree (previous : Option String) (files : List Json) :
    readFiles previous files = (readItems previous files).toOption := by
  induction files generalizing previous with
  | nil => simp [readFiles,readItems,Except.toOption]
  | cons file files ih =>
    unfold readFiles readItems
    split
    · rename_i listed
      cases listed
    · rename_i before _ _ path version files' listed
      cases listed
      simp only [paths_agree,contentVersion,sha256Pattern,ih]
      split
      · rename_i admitted
        simp only [admitted,if_true]
        cases readItems (some path) files with
        | error e => rfl
        | ok entries => rfl
      · rename_i refused
        simp only [refused]
        rfl
    · rfl

-- A list of files as a scan writes it: proper paths in ascending order.
def Listed : Option String → Manifest → Prop
  | _, [] => True
  | previous, (path,version) :: entries =>
    Relative path.toList ∧ isHash version = true ∧ (∀ last ∈ previous, last < path) ∧ Listed (some path) entries

def listing (manifest : Manifest) : List Json := manifest.map fun entry => .arr [.str entry.1,.str entry.2]

theorem readFiles_iff (previous : Option String) (files : List Json) (entries : Manifest) :
    readFiles previous files = some entries ↔ files = listing entries ∧ Listed previous entries := by
  induction files generalizing previous entries with
  | nil =>
    cases entries with
    | nil => simp [readFiles,listing,Listed]
    | cons entry entries => simp [readFiles,listing]
  | cons file files ih =>
    constructor
    · intro read
      unfold readFiles at read
      split at read
      · rename_i listed
        cases listed
      · rename_i path version files' listed
        cases listed
        split at read
        · rename_i admitted
          obtain ⟨later,found,rfl⟩ := Option.map_eq_some_iff.mp read
          obtain ⟨rfl,rest⟩ := (ih _ _).mp found
          simp only [Bool.and_eq_true,validManifestPath_iff,contentVersion,Bool.not_eq_true',Option.any_eq_false,
            decide_eq_false_iff_not] at admitted
          refine ⟨rfl,admitted.1.1,admitted.1.2,fun last member => ?_,rest⟩
          exact lt_of_not_ge (admitted.2 last member)
        · cases read
      · cases read
    · intro written
      obtain ⟨same,listed⟩ := written
      cases entries with
      | nil => cases same
      | cons entry entries =>
        obtain ⟨path,version⟩ := entry
        simp only [listing,List.map_cons,List.cons.injEq] at same
        obtain ⟨rfl,same⟩ := same
        obtain ⟨relative,hash,after,rest⟩ := listed
        have later := (ih (some path) entries).mpr ⟨same,rest⟩
        have ascends : (previous.any fun last => decide (path ≤ last)) = false := by
          rw [Option.any_eq_false]
          intro last member
          simpa using after last member
        simp only [readFiles,(validManifestPath_iff _).mpr relative,contentVersion,hash,ascends,later,Bool.not_false,
          Bool.and_self,if_true,Option.map_some]

-- What both parsers make of a cursor.
def Accepts (cursor : String) (entries : Manifest) : Prop := cursor = manifestCursor entries ∧ Listed none entries

theorem payload_formed (entries : Manifest) : WellFormed (payload entries) := by
  have items : WellFormedItems (listing entries) := by
    induction entries with
    | nil => trivial
    | cons entry entries ih => exact ⟨⟨trivial,trivial,trivial⟩,ih⟩
  exact ⟨by simp,items,trivial⟩

theorem payload_finite (entries : Manifest) : allFinite (payload entries) = true := by
  have items : allFiniteItems (listing entries) = true := by
    induction entries with
    | nil => rfl
    | cons entry entries ih => simpa [listing,allFiniteItems,allFinite] using ih
  simp only [payload,allFinite,allFiniteMembers,Bool.and_true]
  exact items

theorem loads_payload (d : Dialect) (entries : Manifest) :
    loads d ((manifestCursor entries).toList.drop manifestCursorPrefix.length) = some (payload entries) := by
  rw [manifestCursor,String.toList_ofList,List.drop_left]
  exact loads_asciiText (w := []) d (payload_formed entries) (.inr (payload_finite entries)) blank_nil

theorem cursor_begins (entries : Manifest) : manifestCursorPrefix.isPrefixOf (manifestCursor entries).toList = true := by
  rw [manifestCursor,String.toList_ofList,List.isPrefixOf_iff_prefix]
  exact List.prefix_append _ _

theorem parseManifestCursor_iff (cursor : String) (entries : Manifest) :
    parseManifestCursor (some cursor) = some entries ↔ Accepts cursor entries := by
  constructor
  · intro parsed
    simp only [parseManifestCursor] at parsed
    split at parsed
    · split at parsed
      · split at parsed
        · obtain ⟨found,read,same⟩ := Option.bind_eq_some_iff.mp parsed
          split at same
          · rename_i canonical
            cases same
            exact ⟨canonical.symm,((readFiles_iff _ _ _).mp read).2⟩
          · cases same
        · cases parsed
      · cases parsed
    · cases parsed
  · intro accepted
    obtain ⟨rfl,listed⟩ := accepted
    have read := (readFiles_iff none (listing entries) entries).mpr ⟨rfl,listed⟩
    simp only [parseManifestCursor,cursor_begins,loads_payload,if_true]
    simp only [payload,List.lookup_cons,beq_self_eq_true]
    change (readFiles none (listing entries)).bind _ = _
    rw [read]
    simp

theorem parseMarkdownCursor_iff (cursor : String) (entries : Manifest) :
    parseMarkdownCursor cursor = .ok entries ↔ Accepts cursor entries := by
  constructor
  · intro parsed
    simp only [parseMarkdownCursor] at parsed
    split at parsed
    · split at parsed
      · cases parsed
      · split at parsed
        · rename_i items found
          cases read : readItems none items with
          | error e => simp [read,Except.bind] at parsed
          | ok found =>
            simp only [read,Except.bind] at parsed
            split at parsed
            · rename_i canonical
              cases parsed
              have same : readFiles none items = some entries := by
                rw [loops_agree,read]
                rfl
              exact ⟨canonical,((readFiles_iff _ _ _).mp same).2⟩
            · cases parsed
        · cases parsed
      · cases parsed
    · cases parsed
  · intro accepted
    obtain ⟨rfl,listed⟩ := accepted
    have read := (readFiles_iff none (listing entries) entries).mpr ⟨rfl,listed⟩
    rw [loops_agree] at read
    cases items : readItems none (listing entries) with
    | error e => simp [items,Except.toOption] at read
    | ok found =>
      rw [items] at read
      cases read
      simp only [parseMarkdownCursor,cursor_begins,loads_payload,if_true]
      simp only [payload]
      change (readItems none (listing entries)).bind _ = _
      rw [items]
      simp [Except.bind]

theorem parsers_agree (cursor : String) : parseManifestCursor (some cursor) = (parseMarkdownCursor cursor).toOption := by
  cases validated : parseMarkdownCursor cursor with
  | ok entries => exact (parseManifestCursor_iff _ _).mpr ((parseMarkdownCursor_iff _ _).mp validated)
  | error e =>
    cases parsed : parseManifestCursor (some cursor) with
    | none => rfl
    | some entries =>
      have other := (parseMarkdownCursor_iff _ _).mpr ((parseManifestCursor_iff _ _).mp parsed)
      rw [validated] at other
      cases other

theorem listed_of {entries : Manifest} (sorted : entries.Pairwise fun a b => a.1 < b.1) (previous : Option String)
    (after : ∀ last ∈ previous, ∀ entry ∈ entries, last < entry.1)
    (proper : ∀ entry ∈ entries, Relative entry.1.toList ∧ isHash entry.2 = true) : Listed previous entries := by
  induction entries generalizing previous with
  | nil => trivial
  | cons entry entries ih =>
    obtain ⟨path,version⟩ := entry
    obtain ⟨before,rest⟩ := List.pairwise_cons.mp sorted
    have here := proper (path,version) (by simp)
    refine ⟨here.1,here.2,fun last member => after last member (path,version) (by simp),ih rest (some path) ?_ ?_⟩
    · intro last same entry member
      cases same
      exact before entry member
    · exact fun entry member => proper entry (by simp [member])

-- A name that a directory lists; the walk gives up at any other.
def FileName (name : List Char) : Prop :=
  name ≠ [] ∧ name ≠ ['.'] ∧ name ≠ ['.','.'] ∧ '/' ∉ name ∧ Char.ofNat 0 ∉ name

-- The regular files under the root, each under the names that lead to it.
structure Scan where
  files : List (List (List Char) × Utf8.Bytes)
  distinct : (files.map Prod.fst).Nodup
  named : ∀ file ∈ files, file.1 ≠ [] ∧ ∀ name ∈ file.1, FileName name

def locator (names : List (List Char)) : String :=
  String.ofList (PurePosixPath.parse (['/'].intercalate names)).asPosix

-- `_content_hash`
def contentHash (content : Utf8.Bytes) : String := "sha256:" ++ Sha256.hexdigest content

-- `_discover_sync`; `excluded` stands for the configured exclusion patterns.
def discoverSync (excluded : List (List Char) → Bool) (scan : Scan) : Manifest :=
  inOrder Prod.fst ((scan.files.filter fun file =>
    ['.','m','d'].isSuffixOf (file.1.getLast?.getD []) && !excluded file.1).map fun file => (locator file.1,contentHash file.2))

-- The manifests that the connector holds: none before its first scan.
inductive Produced : Manifest → Prop where
  | initial : Produced []
  | discovered (excluded : List (List Char) → Bool) (scan : Scan) : Produced (discoverSync excluded scan)

theorem names_relative {names : List (List Char)} (nonempty : names ≠ []) (named : ∀ name ∈ names, FileName name) :
    Relative (['/'].intercalate names) ∧ (['/'].intercalate names).splitOn '/' = names := by
  have split := List.splitOn_intercalate '/' (fun name member => (named name member).2.2.2.1) nonempty
  refine ⟨⟨?_,fun name member => ?_⟩,split⟩
  · clear split nonempty
    induction names with
    | nil => simp
    | cons name names ih =>
      have later := ih fun other member => named other (by simp [member])
      have here := (named name (by simp)).2.2.2.2
      cases names with
      | nil => simpa [List.intercalate_singleton] using here
      | cons next names =>
        rw [List.intercalate_cons_cons]
        simp only [List.mem_append,List.mem_singleton,not_or]
        exact ⟨⟨here,by decide⟩,later⟩
  · rw [split] at member
    obtain ⟨solid,here,parent,_⟩ := named name member
    exact ⟨solid,here,parent⟩

theorem locator_names {names : List (List Char)} (nonempty : names ≠ []) (named : ∀ name ∈ names, FileName name) :
    (locator names).toList = ['/'].intercalate names := by
  have valid := (validManifestPath_iff _).mpr (names_relative nonempty named).1
  simp only [validManifestPath,Bool.and_eq_true,decide_eq_true_eq] at valid
  rw [locator,String.toList_ofList,valid.2]

theorem hexdigest_hex (message : Utf8.Bytes) : ∀ c ∈ (Sha256.hexdigest message).toList, PyText.isHex c = true := by
  have digit : ∀ d < 16, PyText.isHex (Sha256.hexDigit d) = true := by decide
  intro c member
  simp only [Sha256.hexdigest,String.toList_ofList,List.mem_flatMap,Sha256.hexWord,List.mem_map] at member
  obtain ⟨_,_,_,_,rfl⟩ := member
  exact digit _ (Nat.mod_lt _ (by omega))

theorem contentHash_shape (content : Utf8.Bytes) : isHash (contentHash content) = true := by
  simp only [isHash,isPrefixedHash,contentHash,String.toList_append,List.drop_left,Bool.and_eq_true,
    List.isPrefixOf_iff_prefix,PyText.isHexDigest,Sha256.hexdigest_length,beq_self_eq_true,true_and,List.all_eq_true]
  exact ⟨List.prefix_append _ _,hexdigest_hex content⟩

theorem produced_listed {manifest : Manifest} (produced : Produced manifest) : Listed none manifest := by
  cases produced with
  | initial => trivial
  | discovered excluded scan =>
    have path {file : List (List Char) × Utf8.Bytes} (member : file ∈ scan.files) :=
      locator_names (scan.named _ member).1 (scan.named _ member).2
    refine listed_of (inOrder_strict ?_) none (by simp) fun entry member => ?_
    · rw [List.map_map,List.nodup_map_iff_inj_on (List.Nodup.filter _ (List.Nodup.of_map _ scan.distinct))]
      intro a left b right same
      have left := List.mem_of_mem_filter left
      have right := List.mem_of_mem_filter right
      have joined : ['/'].intercalate a.1 = ['/'].intercalate b.1 := by
        rw [←path left,←path right]
        exact congrArg String.toList same
      have names : a.1 = b.1 := by
        rw [←(names_relative (scan.named _ left).1 (scan.named _ left).2).2,joined,
          (names_relative (scan.named _ right).1 (scan.named _ right).2).2]
      exact List.inj_on_of_nodup_map scan.distinct left right names
    · obtain ⟨file,inside,rfl⟩ := List.mem_map.mp (inOrder_member.mp member)
      have there := List.mem_of_mem_filter inside
      refine ⟨?_,contentHash_shape _⟩
      rw [path there]
      exact (names_relative (scan.named _ there).1 (scan.named _ there).2).1

-- Every cursor that the connector writes reads back as its manifest, and the
-- validator reads every text as the connector does.
theorem manifests_agree :
    (∀ manifest, Produced manifest → parseManifestCursor (some (manifestCursor manifest)) = some manifest) ∧
    ∀ cursor, parseManifestCursor (some cursor) = (parseMarkdownCursor cursor).toOption := by
  refine ⟨fun manifest produced => ?_,parsers_agree⟩
  exact (parseManifestCursor_iff _ _).mpr ⟨rfl,produced_listed produced⟩

end Markdown
