import IntentEngineering.Library.Json

namespace Json
open Decimal Binary64 JsonNumber FloatText

def isWs (c : Char) : Bool := c = ' ' || c = '\t' || c = '\n' || c = '\r'

def skipWs (cs : List Char) : List Char := cs.dropWhile isWs

def hexValue (c : Char) : Option Nat :=
  if isDigit c then some (c.toNat - 48)
  else if 97 ≤ c.toNat ∧ c.toNat ≤ 102 then some (c.toNat - 87)
  else if 65 ≤ c.toNat ∧ c.toNat ≤ 70 then some (c.toNat - 55)
  else none

def hex4 : List Char → Option (Nat × List Char)
  | a :: b :: c :: d :: cs => do
    return (((← hexValue a) * 16 + (← hexValue b)) * 256 + ((← hexValue c) * 16 + (← hexValue d)),cs)
  | _ => none

-- After `\u`. A high surrogate takes the low one escaped right after it; a
-- surrogate left alone is no character.
def unicodeEscape (cs : List Char) : Option (Char × List Char) := do
  let (unit,rest) ← hex4 cs
  if 0xD800 ≤ unit ∧ unit < 0xDC00 then
    match rest with
    | '\\' :: 'u' :: low =>
      let (second,rest) ← hex4 low
      if 0xDC00 ≤ second ∧ second < 0xE000 then
        return (Char.ofNat (0x10000 + (unit - 0xD800) * 0x400 + (second - 0xDC00)),rest)
      else none
    | _ => none
  else if 0xDC00 ≤ unit ∧ unit < 0xE000 then none
  else return (Char.ofNat unit,rest)

def simpleEscape (c : Char) : Option Char :=
  if c = '"' then some '"'
  else if c = '\\' then some '\\'
  else if c = '/' then some '/'
  else if c = 'b' then some (Char.ofNat 8)
  else if c = 'f' then some (Char.ofNat 12)
  else if c = 'n' then some '\n'
  else if c = 'r' then some '\r'
  else if c = 't' then some '\t'
  else none

-- One character of a string that is not its closing quotation mark.
def stringChar : List Char → Option (Char × List Char)
  | [] => none
  | c :: cs =>
    if c = '\\' then match cs with
      | [] => none
      | e :: rest => if e = 'u' then unicodeEscape rest else (simpleEscape e).map fun found => (found,rest)
    else if c.toNat < 32 then none
    else some (c,cs)

-- Every loop of the reader has its own fuel; no run of it on a text needs more
-- than the text is long.
def scanString : Nat → List Char → Option (List Char × List Char)
  | _, [] => none
  | 0, _ => none
  | fuel + 1, c :: cs =>
    if c = '"' then some ([],cs)
    else (stringChar (c :: cs)).bind fun found =>
      (scanString fuel found.2).map fun later => (found.1 :: later.1,later.2)

-- `parse_constant` and `object_pairs_hook` of one reader.
structure Dialect where
  constants : Bool
  duplicates : Bool

def strictDialect : Dialect := ⟨false,false⟩
def plainDialect : Dialect := ⟨true,true⟩

def insertMember (key : String) (value : Json) : Members → Members
  | [] => [(key,value)]
  | (k,v) :: rest =>
    if key < k then (key,value) :: (k,v) :: rest
    else if key = k then (key,value) :: rest
    else (k,v) :: insertMember key value rest

-- The dictionary of the pairs in the order they are read; a later value of one
-- key replaces the earlier.
def buildObject (d : Dialect) (pairs : Members) : Option Members :=
  if d.duplicates = true ∨ (pairs.map Prod.fst).Nodup then
    some (pairs.foldl (fun members pair => insertMember pair.1 pair.2 members) [])
  else none

def tokenValue (t : Token) : Json :=
  if isFloat t then .float (readFloat t)
  else .int (if t.negative then -(natValue t.integer : Int) else natValue t.integer)

def scanConstant (word : List Char) (value : Json) (cs : List Char) : Option (Json × List Char) :=
  if word <+: cs then some (value,cs.drop word.length) else none

-- The spellings that are not JSON but that the reader knows.
def scanSpecial (d : Dialect) (cs : List Char) : Option (Json × List Char) :=
  if d.constants = true then
    (scanConstant nanWord (.float .nan) cs).or
      ((scanConstant infinityWord (.float (.infinite false)) cs).or
        (scanConstant ('-' :: infinityWord) (.float (.infinite true)) cs))
  else none

def scanScalar (d : Dialect) (cs : List Char) : Option (Json × List Char) :=
  (scanConstant nullWord .null cs).or
    ((scanConstant trueWord (.bool true) cs).or
      ((scanConstant falseWord (.bool false) cs).or
        ((scanSpecial d cs).or
          ((scan cs).map fun found => (tokenValue found.1,found.2)))))

def eat (c : Char) : List Char → Option (List Char)
  | [] => none
  | d :: cs => if d = c then some cs else none

mutual
def value (d : Dialect) : Nat → List Char → Option (Json × List Char)
  | 0, _ => none
  | _, [] => none
  | fuel + 1, c :: cs =>
    if c = '"' then (scanString fuel cs).map fun found => (.str (String.ofList found.1),found.2)
    else if c = '[' then
      match eat ']' (skipWs cs) with
      | some rest => some (.arr [],rest)
      | none => (items d fuel (skipWs cs)).map fun found => (.arr found.1,found.2)
    else if c = '{' then
      match eat '}' (skipWs cs) with
      | some rest => some (.obj [],rest)
      | none => (members d fuel (skipWs cs)).bind fun found =>
          (buildObject d found.1).map fun built => (.obj built,found.2)
    else scanScalar d (c :: cs)

def items (d : Dialect) : Nat → List Char → Option (List Json × List Char)
  | 0, _ => none
  | fuel + 1, cs => (value d fuel cs).bind fun found =>
    match eat ']' (skipWs found.2) with
    | some rest => some ([found.1],rest)
    | none => (eat ',' (skipWs found.2)).bind fun rest =>
        (items d fuel (skipWs rest)).map fun later => (found.1 :: later.1,later.2)

def members (d : Dialect) : Nat → List Char → Option (Members × List Char)
  | 0, _ => none
  | fuel + 1, cs => (eat '"' cs).bind fun opened =>
    (scanString fuel opened).bind fun key =>
      (eat ':' (skipWs key.2)).bind fun rest =>
        (value d fuel (skipWs rest)).bind fun found =>
          match eat '}' (skipWs found.2) with
          | some rest => some ([(String.ofList key.1,found.1)],rest)
          | none => (eat ',' (skipWs found.2)).bind fun rest =>
              (members d fuel (skipWs rest)).map fun later =>
                ((String.ofList key.1,found.1) :: later.1,later.2)
end

-- `json.loads`: one value with white space around it and nothing more.
def loads (d : Dialect) (cs : List Char) : Option Json :=
  (value d (cs.length + 1) (skipWs cs)).bind fun found =>
    if skipWs found.2 = [] then some found.1 else none

end Json
