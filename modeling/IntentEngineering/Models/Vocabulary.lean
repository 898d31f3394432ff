import IntentEngineering.Library.DateTime

open Schema

inductive SourceMode where
  | explicit
  | inferred
  | derived
deriving DecidableEq

namespace SourceMode

def spelling : SourceMode → String
  | .explicit => "explicit"
  | .inferred => "inferred"
  | .derived => "derived"

def all : List SourceMode :=
  [.explicit,.inferred,.derived]

def codec : Codec SourceMode := .spelled spelling all (by intro a; cases a <;> decide)

end SourceMode

inductive ImplementationStatus where
  | implementedBaseline
  | partially
  | notStarted
  | requirementsIncomplete
  | unknown
  | staleEvidence
deriving DecidableEq

namespace ImplementationStatus

def spelling : ImplementationStatus → String
  | .implementedBaseline => "implemented_baseline"
  | .partially => "partial"
  | .notStarted => "not_started"
  | .requirementsIncomplete => "requirements_incomplete"
  | .unknown => "unknown"
  | .staleEvidence => "stale_evidence"

def all : List ImplementationStatus :=
  [.implementedBaseline,.partially,.notStarted,.requirementsIncomplete,.unknown,.staleEvidence]

def codec : Codec ImplementationStatus := .spelled spelling all (by intro a; cases a <;> decide)

end ImplementationStatus

inductive ReconciliationCaseType where
  | codeLag
  | requirementLag
  | intentLag
  | testLag
  | docLag
  | undocumentedCode
  | orphanRequirement
  | conflictingSources
  | ambiguousDivergence
  | possibleIntentChange
deriving DecidableEq

namespace ReconciliationCaseType

def spelling : ReconciliationCaseType → String
  | .codeLag => "CODE_LAG"
  | .requirementLag => "REQUIREMENT_LAG"
  | .intentLag => "INTENT_LAG"
  | .testLag => "TEST_LAG"
  | .docLag => "DOC_LAG"
  | .undocumentedCode => "UNDOCUMENTED_CODE"
  | .orphanRequirement => "ORPHAN_REQUIREMENT"
  | .conflictingSources => "CONFLICTING_SOURCES"
  | .ambiguousDivergence => "AMBIGUOUS_DIVERGENCE"
  | .possibleIntentChange => "POSSIBLE_INTENT_CHANGE"

def all : List ReconciliationCaseType :=
  [.codeLag,.requirementLag,.intentLag,.testLag,.docLag,.undocumentedCode,.orphanRequirement,.conflictingSources,
   .ambiguousDivergence,.possibleIntentChange]

def codec : Codec ReconciliationCaseType := .spelled spelling all (by intro a; cases a <;> decide)

end ReconciliationCaseType

inductive ReconciliationStatus where
  | opened
  | needsHuman
  | proposed
  | resolved
  | deferred
  | falsePositive
deriving DecidableEq

namespace ReconciliationStatus

def spelling : ReconciliationStatus → String
  | .opened => "open"
  | .needsHuman => "needs_human"
  | .proposed => "proposed"
  | .resolved => "resolved"
  | .deferred => "deferred"
  | .falsePositive => "false_positive"

def all : List ReconciliationStatus :=
  [.opened,.needsHuman,.proposed,.resolved,.deferred,.falsePositive]

def codec : Codec ReconciliationStatus := .spelled spelling all (by intro a; cases a <;> decide)

end ReconciliationStatus

inductive ResolutionAction where
  | updateImplementation
  | updateRequirement
  | updateIntent
  | updateTests
  | updateDocumentation
  | backfillDesignDecision
  | supersedeRequirement
  | mergeInterpretations
  | preserveDisagreement
  | defer
  | markFalsePositive
deriving DecidableEq

namespace ResolutionAction

def spelling : ResolutionAction → String
  | .updateImplementation => "update_implementation"
  | .updateRequirement => "update_requirement"
  | .updateIntent => "update_intent"
  | .updateTests => "update_tests"
  | .updateDocumentation => "update_documentation"
  | .backfillDesignDecision => "backfill_design_decision"
  | .supersedeRequirement => "supersede_requirement"
  | .mergeInterpretations => "merge_interpretations"
  | .preserveDisagreement => "preserve_disagreement"
  | .defer => "defer"
  | .markFalsePositive => "mark_false_positive"

def all : List ResolutionAction :=
  [.updateImplementation,.updateRequirement,.updateIntent,.updateTests,.updateDocumentation,
   .backfillDesignDecision,.supersedeRequirement,.mergeInterpretations,.preserveDisagreement,.defer,
   .markFalsePositive]

def codec : Codec ResolutionAction := .spelled spelling all (by intro a; cases a <;> decide)

end ResolutionAction

inductive ChangeKind where
  | initialization
  | confirm
  | refine
  | contradict
  | supersede
  | decayOrAmbiguity
deriving DecidableEq

namespace ChangeKind

def spelling : ChangeKind → String
  | .initialization => "initialize"
  | .confirm => "confirm"
  | .refine => "refine"
  | .contradict => "contradict"
  | .supersede => "supersede"
  | .decayOrAmbiguity => "decay_or_ambiguity"

def all : List ChangeKind :=
  [.initialization,.confirm,.refine,.contradict,.supersede,.decayOrAmbiguity]

def codec : Codec ChangeKind := .spelled spelling all (by intro a; cases a <;> decide)

end ChangeKind

inductive RelationType where
  | authoredBy
  | observedIn
  | revisionOf
  | containsEvidence
  | evidences
  | derivedFrom
  | mentions
  | createsNeed
  | motivates
  | seeksOutcome
  | constrains
  | assumes
  | justifies
  | refines
  | supersedes
  | contradicts
  | realizedBy
  | specifiedBy
  | hasAcceptanceCriterion
  | decidedBy
  | dependsOn
  | implementsCapability
  | implementedBy
  | verifiedBy
  | locatedIn
  | calls
  | dependsOnCode
  | changedBy
  | deployedAs
  | measuredBy
  | observedAs
  | validatesOutcome
  | invalidatesAssumption
  | affects
  | ownedBy
  | createdCase
  | resolvedBy
  | proposesChangeTo
  | partOfMilestone
deriving DecidableEq

namespace RelationType

def spelling : RelationType → String
  | .authoredBy => "AUTHORED_BY"
  | .observedIn => "OBSERVED_IN"
  | .revisionOf => "REVISION_OF"
  | .containsEvidence => "CONTAINS_EVIDENCE"
  | .evidences => "EVIDENCES"
  | .derivedFrom => "DERIVED_FROM"
  | .mentions => "MENTIONS"
  | .createsNeed => "CREATES_NEED"
  | .motivates => "MOTIVATES"
  | .seeksOutcome => "SEEKS_OUTCOME"
  | .constrains => "CONSTRAINS"
  | .assumes => "ASSUMES"
  | .justifies => "JUSTIFIES"
  | .refines => "REFINES"
  | .supersedes => "SUPERSEDES"
  | .contradicts => "CONTRADICTS"
  | .realizedBy => "REALIZED_BY"
  | .specifiedBy => "SPECIFIED_BY"
  | .hasAcceptanceCriterion => "HAS_ACCEPTANCE_CRITERION"
  | .decidedBy => "DECIDED_BY"
  | .dependsOn => "DEPENDS_ON"
  | .implementsCapability => "IMPLEMENTS_CAPABILITY"
  | .implementedBy => "IMPLEMENTED_BY"
  | .verifiedBy => "VERIFIED_BY"
  | .locatedIn => "LOCATED_IN"
  | .calls => "CALLS"
  | .dependsOnCode => "DEPENDS_ON_CODE"
  | .changedBy => "CHANGED_BY"
  | .deployedAs => "DEPLOYED_AS"
  | .measuredBy => "MEASURED_BY"
  | .observedAs => "OBSERVED_AS"
  | .validatesOutcome => "VALIDATES_OUTCOME"
  | .invalidatesAssumption => "INVALIDATES_ASSUMPTION"
  | .affects => "AFFECTS"
  | .ownedBy => "OWNED_BY"
  | .createdCase => "CREATED_CASE"
  | .resolvedBy => "RESOLVED_BY"
  | .proposesChangeTo => "PROPOSES_CHANGE_TO"
  | .partOfMilestone => "PART_OF_MILESTONE"

def all : List RelationType :=
  [.authoredBy,.observedIn,.revisionOf,.containsEvidence,.evidences,.derivedFrom,.mentions,.createsNeed,.motivates,
   .seeksOutcome,.constrains,.assumes,.justifies,.refines,.supersedes,.contradicts,.realizedBy,.specifiedBy,
   .hasAcceptanceCriterion,.decidedBy,.dependsOn,.implementsCapability,.implementedBy,.verifiedBy,.locatedIn,
   .calls,.dependsOnCode,.changedBy,.deployedAs,.measuredBy,.observedAs,.validatesOutcome,.invalidatesAssumption,
   .affects,.ownedBy,.createdCase,.resolvedBy,.proposesChangeTo,.partOfMilestone]

def codec : Codec RelationType := .spelled spelling all (by intro a; cases a <;> decide)

end RelationType

-- Spellings that the validation library takes beyond the one it writes: another
-- notation of a time, a number or flag given as text, and the like.
structure Coercions where
  time : Json → Option DateTime
  utc : Json → Option UtcTime
  number : Json → Option Binary64.Float64
  integer : Json → Option Int
  flag : Json → Option Bool

namespace Coercions

variable (lax : Coercions)

def timeCodec : Codec DateTime := DateTime.codec.lax lax.time

def optionalTimeCodec : Codec (Option DateTime) := lax.timeCodec.nullable nofun

def utcCodec : Codec UtcTime := UtcTime.codec.lax lax.utc

def flagCodec : Codec Bool := Codec.bool.lax lax.flag

def naturalCodec : Codec Nat := (Codec.int.lax lax.integer).natural

instance : lax.timeCodec.Finite := inferInstanceAs (Codec.lax ..).Finite
instance : lax.utcCodec.Finite := inferInstanceAs (Codec.lax ..).Finite

end Coercions

-- No spelling beyond the canonical ones.
def canonicalOnly : Coercions := ⟨fun _ => none,fun _ => none,fun _ => none,fun _ => none,fun _ => none⟩
