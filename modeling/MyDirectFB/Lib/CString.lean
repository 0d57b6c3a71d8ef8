/-
Byte strings that contain no NUL, as C strings are passed by reference.
-/
import MyDirectFB.Lib.Scan

/-- The bytes of a C string before its terminating NUL. -/
@[ext] structure CString where
  bytes : List UInt8
  noNul : 0 ∉ bytes
deriving Repr, DecidableEq

namespace CString

/-- The string at a pointer: the bytes in memory before the first NUL. -/
def ofMemory (memory : List UInt8) : CString where
  bytes := memory.takeWhile (· ≠ 0)
  noNul hmem := by simpa using List.mem_takeWhile_imp hmem

/-- A string and its NUL are found again, whatever follows. -/
theorem ofMemory_append (s : CString) (rest : List UInt8) :
    ofMemory (s.bytes ++ 0 :: rest) = s := by
  ext1
  refine Scan.takeWhile_stop ?_ rfl rest
  intro byte hbyte
  have hne : byte ≠ 0 := fun h => s.noNul (h ▸ hbyte)
  simpa using hne

/-- A copy of a string into a larger buffer is padded with NULs. -/
theorem take_padded {bytes : List UInt8} {n size : Nat}
    (hlength : bytes.length ≤ n) (hsize : n ≤ size) :
    (bytes ++ List.replicate size 0).take n =
      bytes ++ List.replicate (n - bytes.length) 0 := by
  rw [List.take_append, List.take_of_length_le hlength, List.take_replicate,
    Nat.min_eq_left (by omega)]

end CString
