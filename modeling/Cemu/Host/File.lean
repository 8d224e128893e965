import Cemu.Lib.Numerals

/-!
# Host files

The two positioned accesses of `host/file_win.c` every disk image goes through. A file is its
length and its bytes; a read stops at the end, a write past the end extends the file, and a
negative offset or an empty range does nothing. The `DWORD` the host call takes is the low 32
bits of the length. A host buffer is a function of the offset, for callers that stay inside it.
-/

namespace Cemu

structure HostFile where
  size : Nat
  data : Nat → BitVec 8

def fillBuf (buf : Nat → BitVec 8) (bytes : List (BitVec 8)) : Nat → BitVec 8 :=
  fun k => bytes.getD k (buf k)

def bufBytes (buf : Nat → BitVec 8) (n : Nat) : List (BitVec 8) := (List.range n).map buf

theorem bufBytes_fillBuf (buf : Nat → BitVec 8) {bytes : List (BitVec 8)} {n : Nat}
    (hn : n ≤ bytes.length) : bufBytes (fillBuf buf bytes) n = bytes.take n := by
  apply List.ext_getElem
  · simp [bufBytes, hn]
  · intro k hk hk'
    have hlt : k < bytes.length := by simp [bufBytes] at hk; omega
    simp [bufBytes, fillBuf, hlt]

namespace HostFile

/-- `HostFileReadAt`: the bytes read, whose number is the source's return value. -/
def readAt (f : HostFile) (off : Int) (n : Nat) : List (BitVec 8) :=
  if n = 0 ∨ off < 0 then []
  else (List.range (min (n % 2 ^ 32) (f.size - off.toNat))).map fun k => f.data (off.toNat + k)

def writeAt (f : HostFile) (off : Int) (buf : List (BitVec 8)) : HostFile × Nat :=
  if buf.length = 0 ∨ off < 0 then (f, 0)
  else
    let n := buf.length % 2 ^ 32
    (⟨if n = 0 then f.size else max f.size (off.toNat + n),
      fun i => if off.toNat ≤ i ∧ i < off.toNat + n then buf.getD (i - off.toNat) 0
        else if i < f.size then f.data i else 0⟩, n)

theorem length_readAt {f : HostFile} {off : Int} {want : Nat} (hoff : 0 ≤ off)
    (hwant : want < 2 ^ 32) (hfit : off + want ≤ f.size) : (f.readAt off want).length = want := by
  unfold readAt
  split
  · rename_i h
    rcases h with rfl | h
    · rfl
    · omega
  · rw [List.length_map, List.length_range]
    omega

end HostFile

end Cemu
