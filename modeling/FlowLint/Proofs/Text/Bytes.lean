import FlowLint.Text.Utf8
import Mathlib.Data.List.Basic

/-!
# Texts are read back from their bytes

Bytes are put into a list one by one, and those of a text are the ones that it is kept as. Which
bytes that no text has are refused is not said here.
-/

namespace FlowLint.Text

theorem toList_loop (bs : ByteArray) (i : Nat) (done : List UInt8) :
    ByteArray.toList.loop bs i done = done.reverse ++ bs.data.toList.drop i := by
  fun_induction ByteArray.toList.loop bs i done with
  | case1 i done hi ih =>
    have hi : i < bs.data.toList.length := hi
    have hget : bs.get! i = bs.data.toList[i] := getElem!_pos bs.data i hi
    rw [ih, List.drop_eq_getElem_cons hi, List.reverse_cons, List.append_assoc, hget]
    rfl
  | case2 i done hi =>
    rw [List.drop_eq_nil_of_le (Nat.le_of_not_lt hi), List.append_nil]

/-- A text is read back from its bytes. -/
@[simp] theorem ofBytes?_toBytes (s : String) : ofBytes? (toBytes s) = some s := by
  have hbytes : toBytes s = s.toUTF8.data.toList := by
    rw [toBytes, ByteArray.toList, toList_loop]
    rfl
  rw [ofBytes?, hbytes, Array.toArray_toList]
  exact dif_pos s.isValidUTF8

end FlowLint.Text
