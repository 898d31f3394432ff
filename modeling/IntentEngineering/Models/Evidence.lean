import IntentEngineering.Library.PyEqual
import IntentEngineering.Library.PyText
import IntentEngineering.Models.Vocabulary

open Schema

abbrev Payload := {ms : Json.Members // (Json.obj ms).WellFormed}

structure EvidenceRecord where
  id : String
  connectorType : String
  externalObjectId : String
  externalVersion : String
  author : Option String
  observedAt : DateTime
  sourceLocator : String
  contentHash : String
  payload : Payload
  parentRef : Option String
  acl : List String

namespace EvidenceRecord

-- `==` of two records: times compare as instants and payloads by value.
def equal (a b : EvidenceRecord) : Bool :=
  a.id == b.id && a.connectorType == b.connectorType && a.externalObjectId == b.externalObjectId &&
    a.externalVersion == b.externalVersion && a.author == b.author && a.observedAt.same b.observedAt &&
    a.sourceLocator == b.sourceLocator && a.contentHash == b.contentHash &&
    Json.equal (.obj a.payload.1) (.obj b.payload.1) && a.parentRef == b.parentRef && a.acl == b.acl

theorem equal_symm {a b : EvidenceRecord} (same : a.equal b = true) : b.equal a = true := by
  simp only [equal,Bool.and_eq_true,beq_iff_eq] at same ⊢
  obtain ⟨⟨⟨⟨⟨⟨⟨⟨⟨⟨id,connector⟩,object⟩,version⟩,author⟩,time⟩,locator⟩,content⟩,payload⟩,parent⟩,acl⟩ := same
  exact ⟨⟨⟨⟨⟨⟨⟨⟨⟨⟨id.symm,connector.symm⟩,object.symm⟩,version.symm⟩,author.symm⟩,DateTime.same_symm time⟩,locator.symm⟩,content.symm⟩,
    Json.equal_symm _ payload⟩,parent.symm⟩,acl.symm⟩

theorem equal_trans {a b c : EvidenceRecord} (first : a.equal b = true) (second : b.equal c = true) : a.equal c = true := by
  simp only [equal,Bool.and_eq_true,beq_iff_eq] at first second ⊢
  obtain ⟨⟨⟨⟨⟨⟨⟨⟨⟨⟨id,connector⟩,object⟩,version⟩,author⟩,time⟩,locator⟩,content⟩,payload⟩,parent⟩,acl⟩ := first
  obtain ⟨⟨⟨⟨⟨⟨⟨⟨⟨⟨id',connector'⟩,object'⟩,version'⟩,author'⟩,time'⟩,locator'⟩,content'⟩,payload'⟩,parent'⟩,acl'⟩ := second
  exact ⟨⟨⟨⟨⟨⟨⟨⟨⟨⟨id.trans id',connector.trans connector'⟩,object.trans object'⟩,version.trans version'⟩,author.trans author'⟩,DateTime.same_trans time time'⟩,
    locator.trans locator'⟩,content.trans content'⟩,Json.equal_trans _ payload payload'⟩,parent.trans parent'⟩,acl.trans acl'⟩

def fields (lax : Coercions) :=
  Fields.defaulted "acl" Codec.string.list [] <|
  Fields.required "author" Codec.optionalString <|
  Fields.required "connector_type" Codec.string <|
  Fields.required "content_hash" Codec.string <|
  Fields.required "external_object_id" Codec.string <|
  Fields.required "external_version" Codec.string <|
  Fields.required "id" Codec.string <|
  Fields.required "observed_at" lax.timeCodec <|
  Fields.defaulted "parent_ref" Codec.optionalString none <|
  Fields.required "payload" Codec.mapping <|
  Fields.required "source_locator" Codec.string <|
  Fields.nil

def codec (lax : Coercions) : Codec EvidenceRecord :=
  (Codec.object (fields lax)).convert
    (fun (acl,author,connectorType,contentHash,externalObjectId,externalVersion,id,observedAt,parentRef,payload,sourceLocator,_) =>
      some ⟨id,connectorType,externalObjectId,externalVersion,author,observedAt,sourceLocator,contentHash,payload,parentRef,acl⟩)
    (fun e => (e.acl,e.author,e.connectorType,e.contentHash,e.externalObjectId,e.externalVersion,e.id,e.observedAt,
      e.parentRef,e.payload,e.sourceLocator,()))
    (fun _ => rfl)

end EvidenceRecord

-- `min_length=1` and the pattern `.*\S.*`.
def connectorText (s : String) : Bool := s.toList.any fun c => !PyText.isPatternSpace c

structure EvidenceIngestion where
  connectorId : String
  sequence : Nat
  predecessorId : Option String
  evidence : EvidenceRecord
  named : connectorText connectorId = true
  positive : 1 ≤ sequence

namespace EvidenceIngestion

def fields (lax : Coercions) :=
  Fields.required "connector_id" Codec.string <|
  Fields.required "evidence" (EvidenceRecord.codec lax) <|
  Fields.defaulted "predecessor_id" Codec.optionalString none <|
  Fields.required "sequence" Codec.int.natural <|
  Fields.defaulted "storage_schema_version" (Codec.int.only 1) () <|
  Fields.nil

def codec (lax : Coercions) : Codec EvidenceIngestion :=
  (Codec.object (fields lax)).convert
    (fun (connectorId,evidence,predecessorId,sequence,_) =>
      if valid : connectorText connectorId = true ∧ 1 ≤ sequence then
        some ⟨connectorId,sequence,predecessorId,evidence,valid.1,valid.2⟩
      else none)
    (fun i => (i.connectorId,i.evidence,i.predecessorId,i.sequence,(),()))
    (fun i => by simp [i.named,i.positive])

end EvidenceIngestion
