import IntentEngineering.Library.FloatText
import Mathlib.Data.String.Basic

-- An object lists its members by key, each key once and in code point order.
inductive Json where
  | null
  | bool (value : Bool)
  | int (value : Int)
  | float (value : Binary64.Float64)
  | str (value : String)
  | arr (items : List Json)
  | obj (members : List (String × Json))

-- Over the characters of a text, not over all characters.
instance (priority := high) charsDecidable (P : Char → Prop) [DecidablePred P] (cs : List Char) : Decidable (∀ c ∈ cs, P c) :=
  List.decidableBAll P cs

namespace Json
open Decimal Binary64 JsonNumber FloatText

abbrev Members := List (String × Json)

def hexDigit (d : Nat) : Char := if d < 10 then Char.ofNat (48 + d) else Char.ofNat (87 + d)

-- Only the quotation mark, the backslash and the C0 controls are escaped.
def escape (c : Char) : List Char :=
  if c = '"' then ['\\','"']
  else if c = '\\' then ['\\','\\']
  else if c = '\n' then ['\\','n']
  else if c = '\r' then ['\\','r']
  else if c = '\t' then ['\\','t']
  else if c.toNat = 8 then ['\\','b']
  else if c.toNat = 12 then ['\\','f']
  else if c.toNat < 32 then ['\\','u','0','0',hexDigit (c.toNat / 16),hexDigit (c.toNat % 16)]
  else [c]

def stringBody (s : String) : List Char := s.toList.flatMap escape ++ ['"']

def stringText (s : String) : List Char := '"' :: stringBody s

def intToken (n : Int) : Token := ⟨decide (n < 0),natText n.natAbs,[],none⟩

def nullWord : List Char := ['n','u','l','l']
def trueWord : List Char := ['t','r','u','e']
def falseWord : List Char := ['f','a','l','s','e']
def nanWord : List Char := ['N','a','N']
def infinityWord : List Char := ['I','n','f','i','n','i','t','y']

def floatText : Float64 → List Char
  | .finite x => (reprFloat x).text
  | .infinite negative => if negative then '-' :: infinityWord else infinityWord
  | .nan => nanWord

-- `json.dumps` with `ensure_ascii=False`, the compact separators and sorted keys.
mutual
def text : Json → List Char
  | .null => nullWord
  | .bool true => trueWord
  | .bool false => falseWord
  | .int n => (intToken n).text
  | .float x => floatText x
  | .str s => stringText s
  | .arr [] => ['[',']']
  | .arr (v :: vs) => '[' :: (text v ++ itemsText vs)
  | .obj [] => ['{','}']
  | .obj ((k,v) :: ms) => '{' :: (stringText k ++ ':' :: (text v ++ membersText ms))

def itemsText : List Json → List Char
  | [] => [']']
  | v :: vs => ',' :: (text v ++ itemsText vs)

def membersText : List (String × Json) → List Char
  | [] => ['}']
  | (k,v) :: ms => ',' :: (stringText k ++ ':' :: (text v ++ membersText ms))
end

-- Keys ascend strictly at every level.
mutual
def WellFormed : Json → Prop
  | .arr vs => WellFormedItems vs
  | .obj ms => (ms.map Prod.fst).Pairwise (· < ·) ∧ WellFormedMembers ms
  | _ => True

def WellFormedItems : List Json → Prop
  | [] => True
  | v :: vs => WellFormed v ∧ WellFormedItems vs

def WellFormedMembers : List (String × Json) → Prop
  | [] => True
  | (_,v) :: ms => WellFormed v ∧ WellFormedMembers ms
end

mutual
def allFinite : Json → Bool
  | .float (.finite _) => true
  | .float _ => false
  | .arr vs => allFiniteItems vs
  | .obj ms => allFiniteMembers ms
  | _ => true

def allFiniteItems : List Json → Bool
  | [] => true
  | v :: vs => allFinite v && allFiniteItems vs

def allFiniteMembers : List (String × Json) → Bool
  | [] => true
  | (_,v) :: ms => allFinite v && allFiniteMembers ms
end

-- Every string of a value, keys included.
mutual
def strings : Json → List String
  | .str s => [s]
  | .arr vs => stringsItems vs
  | .obj ms => stringsMembers ms
  | _ => []

def stringsItems : List Json → List String
  | [] => []
  | v :: vs => strings v ++ stringsItems vs

def stringsMembers : List (String × Json) → List String
  | [] => []
  | (k,v) :: ms => k :: (strings v ++ stringsMembers ms)
end

def isNumber : Json → Bool
  | .int _ => true
  | .float _ => true
  | _ => false

end Json
