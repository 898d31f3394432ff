namespace Utf8

abbrev Bytes := List UInt8

def encode (cs : List Char) : Bytes := cs.flatMap String.utf8EncodeChar

-- Exactly the valid encodings decode: no overlong form and no surrogate.
def decode (bytes : Bytes) : Option (List Char) := bytes.toByteArray.utf8Decode?.map Array.toList

theorem encode_append (xs ys : List Char) : encode (xs ++ ys) = encode xs ++ encode ys := by
  simp [encode]

theorem toByteArray_encode (cs : List Char) : (encode cs).toByteArray = cs.utf8Encode := rfl

theorem decode_encode (cs : List Char) : decode (encode cs) = some cs := by
  rw [decode,toByteArray_encode,List.utf8Decode?_utf8Encode]
  rfl

theorem decode_sound (got : decode bytes = some cs) : bytes = encode cs := by
  obtain ⟨found,read,same⟩ := Option.map_eq_some_iff.mp got
  have present : bytes.toByteArray.utf8Decode?.isSome = true := by simp [read]
  have written := ByteArray.utf8Encode_get_utf8Decode? (b := bytes.toByteArray) (h := present)
  simp only [read,Option.get_some,same] at written
  have data := congrArg (fun array => array.data.toList) written
  simpa [encode,List.utf8Encode] using data.symm

theorem decode_append (left : decode xs = some cs) (ds : List Char) : decode (xs ++ encode ds) = some (cs ++ ds) := by
  rw [decode_sound left,←encode_append,decode_encode]

end Utf8
