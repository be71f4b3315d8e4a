import SchcCoreconf.Lib.BigEndian

/-!
# The bytes of a text

A text is determined by its UTF-8 bytes, and bytes below 128 are the text of their
characters.
-/

namespace Utf8

theorem toList_loop (bytes : ByteArray) (i : Nat) (front : List UInt8) :
    ByteArray.toList.loop bytes i front = front.reverse ++ bytes.data.toList.drop i := by
  fun_induction ByteArray.toList.loop bytes i front with
  | case1 i front hlt ih =>
    have hget : bytes.get! i = bytes.data.toList.get ⟨i, hlt⟩ := by
      show bytes.data[i]! = _
      rw [getElem!_pos bytes.data i hlt]
      rfl
    rw [ih, List.reverse_cons, List.append_assoc, hget, List.singleton_append, List.get_eq_getElem,
      List.getElem_cons_drop]
  | case2 i front hlt =>
    rw [List.drop_eq_nil_of_le (Nat.le_of_not_lt hlt), List.append_nil]

theorem toList_eq (bytes : ByteArray) : bytes.toList = bytes.data.toList :=
  toList_loop bytes 0 []

theorem injective {left right : String} (h : left.toUTF8.toList = right.toUTF8.toList) :
    left = right := by
  rw [toList_eq, toList_eq] at h
  exact String.toByteArray_inj.mp (ByteArray.ext (Array.toList_inj.mp h))

def ofAscii (bytes : List UInt8) : String := .ofList (bytes.map fun byte => Char.ofNat byte.toNat)

theorem encode_ascii {byte : UInt8} (h : byte.toNat < 128) :
    String.utf8EncodeChar (Char.ofNat byte.toNat) = [byte] := by
  have hall : ∀ byte : UInt8, byte.toNat < 128 →
      String.utf8EncodeChar (Char.ofNat byte.toNat) = [byte] :=
        BigEndian.forall_byte (by decide +kernel)
  exact hall byte h

theorem toList_ofAscii (h : ∀ byte ∈ bytes, byte.toNat < 128) :
    (ofAscii bytes).toUTF8.toList = bytes := by
  rw [toList_eq]
  show (List.utf8Encode _).data.toList = bytes
  rw [List.utf8Encode, List.toList_data_toByteArray]
  induction bytes with
  | nil => rfl
  | cons byte rest ih =>
    rw [List.map_cons, List.flatMap_cons, encode_ascii (h byte List.mem_cons_self),
      ih fun b hb => h b (List.mem_cons_of_mem _ hb)]
    rfl

end Utf8
