import Cadence.Proofs.Json.Nesting
/-!
# Hashed content

The bytes that are hashed determine the object, although nothing stands between the name of the
class and the text of the fields, and the name may itself end like the text of an object.
-/

namespace Cadence

theorem toList_loop_bytes (bytes : ByteArray) (index : Nat) (read : List UInt8) :
    ByteArray.toList.loop bytes index read = read.reverse ++ bytes.data.toList.drop index := by
  fun_induction ByteArray.toList.loop bytes index read with
  | case1 index read inside ih =>
      have here : bytes.data.toList.drop index =
          bytes.get! index :: bytes.data.toList.drop (index + 1) := by
        rw [List.drop_eq_getElem_cons (by simpa using inside)]
        simp [ByteArray.get!, inside]
      rw [ih, here, List.reverse_cons, List.append_assoc, List.singleton_append]
  | case2 index read past =>
      rw [List.drop_eq_nil_of_le (by simpa using past), List.append_nil]

theorem bytes_inj {bytes other : ByteArray} (same : bytes.toList = other.toList) :
    bytes = other := by
  unfold ByteArray.toList at same
  rw [toList_loop_bytes, toList_loop_bytes] at same
  exact ByteArray.ext (Array.toList_inj.1 same)

namespace Object

variable {object other : Object}

def hashedBytes (object : Object) : List UInt8 :=
  (object.className.toUTF8 ++ (Json.obj object.fields).compact.toUTF8).toList

theorem hashedBytes_eq (object : Object) :
    object.hashedBytes = object.hashedText.toUTF8.toList := by
  have bytes : object.hashedText.toUTF8 =
      object.className.toUTF8 ++ (Json.obj object.fields).compact.toUTF8 :=
    String.toByteArray_append
  rw [bytes, hashedBytes]

theorem hashedText_inj (lowest : (Json.obj object.fields).InLowestTerms)
    (lowest' : (Json.obj other.fields).InLowestTerms)
    (same : object.hashedText = other.hashedText) : object = other := by
  have chars := congrArg String.toList same
  simp only [hashedText, Json.compact, String.toList_append, String.toList_ofList] at chars
  have texts : (Json.obj object.fields).emit [] = (Json.obj other.fields).emit [] := by
    rcases List.append_eq_append_iff.1 chars with ⟨between, -, rest⟩ | ⟨between, -, rest⟩
    · obtain rfl := Json.Reading.eq_nil_of_append_obj rest.symm
      exact rest
    · obtain rfl := Json.Reading.eq_nil_of_append_obj rest.symm
      exact rest.symm
  rw [texts] at chars
  have names := String.toList_inj.1 (List.append_cancel_right chars)
  obtain ⟨fields, -⟩ := Json.emit_inj lowest lowest' Json.ends_nil Json.ends_nil texts
  cases object
  cases other
  simp_all

theorem hashedBytes_inj (lowest : (Json.obj object.fields).InLowestTerms)
    (lowest' : (Json.obj other.fields).InLowestTerms)
    (same : object.hashedBytes = other.hashedBytes) : object = other := by
  rw [hashedBytes_eq, hashedBytes_eq] at same
  exact hashedText_inj lowest lowest' (String.toByteArray_inj.1 (bytes_inj same))

/-- The bytes that are hashed identify the object. So two addresses have one hash in front only if
they are addresses of equal objects, or different bytes have one digest. -/
theorem hashed_bytes_identify_content (object other : Object)
    (lowest : (Json.obj object.fields).InLowestTerms)
    (lowest' : (Json.obj other.fields).InLowestTerms) :
    (object.className.toUTF8 ++ (Json.obj object.fields).compact.toUTF8 =
        other.className.toUTF8 ++ (Json.obj other.fields).compact.toUTF8 →
      object.className = other.className ∧ object.fields = other.fields) ∧
    ∀ (heap heap' : Heap) (hash : String) (salt salt' : Nat),
      (heap.allocate object).1 = hash ++ "_" ++ toString salt →
      (heap'.allocate other).1 = hash ++ "_" ++ toString salt' →
      object = other ∨ object.hashedBytes ≠ other.hashedBytes ∧
        Md5.hex object.hashedBytes = Md5.hex other.hashedBytes := by
  constructor
  · intro same
    obtain rfl := hashedBytes_inj lowest lowest' (congrArg ByteArray.toList same)
    exact ⟨rfl, rfl⟩
  · intro heap heap' hash salt salt' address address'
    have hashes : object.contentHash = hash := (numbered_inj (c := '_') rfl rfl address).1
    have hashes' : other.contentHash = hash := (numbered_inj (c := '_') rfl rfl address').1
    by_cases bytes : object.hashedBytes = other.hashedBytes
    · exact .inl (hashedBytes_inj lowest lowest' bytes)
    · rw [contentHash, ← hashedBytes_eq] at hashes hashes'
      exact .inr ⟨bytes, hashes.trans hashes'.symm⟩

theorem hashed_bytes_tell_names_apart :
    (Json.obj [("x", .decimal ⟨false, 15, -1⟩)]).InLowestTerms ∧
      (Json.obj []).InLowestTerms ∧
      "A".toUTF8 ++ (Json.obj [("x", .decimal ⟨false, 15, -1⟩)]).compact.toUTF8 ≠
        "A\x7b\x22x\x22:1.5\x7d".toUTF8 ++ (Json.obj []).compact.toUTF8 := by
  have lowest : (Json.obj [("x", .decimal ⟨false, 15, -1⟩)]).InLowestTerms := by
    rintro decimal (_ | _ | ⟨member, inside⟩)
    cases List.mem_singleton.1 member
    cases inside
    exact .inl (by decide)
  have lowest' : (Json.obj []).InLowestTerms := by
    rintro decimal (_ | _ | ⟨member, inside⟩)
    cases member
  refine ⟨lowest, lowest', fun same => ?_⟩
  have content := hashed_bytes_identify_content ⟨"A", _⟩ ⟨"A\x7b\x22x\x22:1.5\x7d", _⟩ lowest lowest'
  exact absurd (content.1 same).1 (by decide)

end Object

end Cadence
