import SimpleCloudClient.Library.Strtok

/-!
# C strings in memory

Memory is a list of blocks of bytes, and a pointer is a block with an offset into it. An access
outside the block of its pointer has no result, so what has a result stays in bounds. The
functions of `string.h` are loops of such accesses; they agree with the functions on byte lists
wherever a terminator follows.
-/
namespace ByteMemory
open CString

/-- An object of a 32-bit target: its size is a `ptrdiff_t`. -/
structure Block where
  bytes : List UInt8
  small : bytes.length < 2 ^ 31

structure Mem where
  blocks : List Block

structure Ptr where
  block : Nat
  offset : Nat
  deriving DecidableEq

namespace Ptr
def add (p : Ptr) (n : Nat) : Ptr := ⟨p.block, p.offset + n⟩
end Ptr

def Block.set (block : Block) (offset : Nat) (b : UInt8) : Block where
  bytes := block.bytes.set offset b
  small := by simpa using block.small

namespace Mem

/-- The bytes from a pointer to the end of its block. -/
def bytesFrom (m : Mem) (p : Ptr) : Option (List UInt8) :=
  m.blocks[p.block]?.map fun block => block.bytes.drop p.offset

def load (m : Mem) (p : Ptr) : Option UInt8 := (m.bytesFrom p).bind (·.head?)

def store (m : Mem) (p : Ptr) (b : UInt8) : Option Mem := do
  let block ← m.blocks[p.block]?
  if p.offset < block.bytes.length then
    return ⟨m.blocks.set p.block (block.set p.offset b)⟩
  else none

/-- `new char[size]`; the contents are what the memory held. -/
def alloc (m : Mem) (size : Nat) (contents : Nat → UInt8) : Option (Ptr × Mem) :=
  if small : size < 2 ^ 31 then
    some (⟨m.blocks.length, 0⟩, ⟨m.blocks ++ [⟨(List.range size).map contents, by simpa⟩]⟩)
  else none

/-- `delete[]`; no later access to the block has a result. -/
def free (m : Mem) (p : Ptr) : Option Mem :=
  if p.offset = 0 ∧ p.block < m.blocks.length then
    some ⟨m.blocks.set p.block ⟨[], by decide⟩⟩
  else none

end Mem

/-! ## Scanning -/

/-- The loop `while (pred(*p)) p++`: the number of bytes passed, if it ends inside the block. -/
def scan (pred : UInt8 → Bool) : List UInt8 → Option Nat
  | [] => none
  | b :: bs => if pred b then (scan pred bs).map (· + 1) else some 0

theorem scan_eq (pred : UInt8 → Bool) {bytes : List UInt8} (h : ∃ b ∈ bytes, pred b = false) :
    scan pred bytes = some (bytes.takeWhile pred).length := by
  induction bytes with
  | nil => simp at h
  | cons b bs ih =>
    by_cases hb : pred b = true
    · have hrest : ∃ c ∈ bs, pred c = false := by
        obtain ⟨c, hc, hpred⟩ := h
        rcases List.mem_cons.mp hc with rfl | hc
        · rw [hb] at hpred
          cases hpred
        · exact ⟨c, hc, hpred⟩
      simp [scan, hb, ih hrest]
    · simp [scan, hb]

/-- A scan with a result stops at a byte of the list. -/
theorem scan_some {pred : UInt8 → Bool} {bytes : List UInt8} {n : Nat}
    (h : scan pred bytes = some n) : ∃ w b rest, bytes = w ++ b :: rest ∧ w.length = n ∧
      pred b = false ∧ ∀ c ∈ w, pred c = true := by
  induction bytes generalizing n with
  | nil => cases h
  | cons b bs ih =>
    by_cases hb : pred b = true
    · simp only [scan, hb, if_true, Option.map_eq_some_iff] at h
      obtain ⟨k, hk, rfl⟩ := h
      obtain ⟨w, c, rest, rfl, rfl, hc, hw⟩ := ih hk
      exact ⟨b :: w, c, rest, rfl, rfl, hc, List.forall_mem_cons.mpr ⟨hb, hw⟩⟩
    · simp only [scan, hb, Bool.false_eq_true, if_false, Option.some.injEq] at h
      exact ⟨[], b, bs, rfl, h, Bool.eq_false_iff.mpr hb, by simp⟩

/-- What a scan passes over is not the end of the list. -/
theorem takeWhile_length_lt {pred : UInt8 → Bool} {bytes : List UInt8}
    (h : ∃ b ∈ bytes, pred b = false) : (bytes.takeWhile pred).length < bytes.length := by
  obtain ⟨b, hb, hpred⟩ := h
  refine lt_of_le_of_ne (List.takeWhile_prefix pred).length_le fun heq => ?_
  have hall := List.takeWhile_eq_self_iff.mp
    ((List.takeWhile_prefix pred).eq_of_length heq) b hb
  rw [hpred] at hall
  cases hall

def strlen (m : Mem) (p : Ptr) : Option Nat := do
  let bytes ← m.bytesFrom p
  scan (· ≠ 0) bytes

/-- The string that a pointer denotes. -/
def cstring (m : Mem) (p : Ptr) : Option (List UInt8) := do
  let bytes ← m.bytesFrom p
  let length ← scan (· ≠ 0) bytes
  return bytes.take length

/-- The padding of `strncpy`. -/
def zeros (m : Mem) (dst : Ptr) : Nat → Option Mem
  | 0 => some m
  | n + 1 => do zeros (← m.store dst 0) (dst.add 1) n

def strncpy (m : Mem) (dst src : Ptr) : Nat → Option Mem
  | 0 => some m
  | n + 1 => do
    let b ← m.load src
    let m ← m.store dst b
    if b = 0 then zeros m (dst.add 1) n else strncpy m (dst.add 1) (src.add 1) n

/-- One call of `strtok` from the saved position: the word or NULL, the position to save, and
the memory. -/
def strtok (m : Mem) (delim : UInt8) (saved : Ptr) : Option (Option Ptr × Ptr × Mem) := do
  let skipped ← scan (· = delim) (← m.bytesFrom saved)
  let start := saved.add skipped
  if (← m.load start) = 0 then
    return (none, start, m)
  let length ← scan (fun b => b ≠ delim ∧ b ≠ 0) (← m.bytesFrom start)
  let stop := start.add length
  if (← m.load stop) = 0 then
    return (some start, stop, m)
  let m ← m.store stop 0
  return (some start, stop.add 1, m)

/-! ## One block -/

/-- The block has these bytes. -/
def Mem.Holds (m : Mem) (block : Nat) (bytes : List UInt8) : Prop :=
  m.blocks[block]?.map (·.bytes) = some bytes

/-- Nothing but the contents of this block differs. -/
structure Mem.OnlyAt (block : Nat) (m m' : Mem) : Prop where
  length : m'.blocks.length = m.blocks.length
  others : ∀ b, b ≠ block → m'.blocks[b]? = m.blocks[b]?

variable {m m₁ m₂ : Mem} {block offset : Nat} {bytes : List UInt8}

theorem Mem.OnlyAt.refl (block : Nat) (m : Mem) : m.OnlyAt block m := ⟨rfl, fun _ _ => rfl⟩

theorem Mem.OnlyAt.trans (h : m.OnlyAt block m₁) (h' : m₁.OnlyAt block m₂) :
    m.OnlyAt block m₂ where
  length := h'.length.trans h.length
  others b hb := (h'.others b hb).trans (h.others b hb)

theorem Mem.Holds.bytesFrom (h : m.Holds block bytes) (offset : Nat) :
    m.bytesFrom ⟨block, offset⟩ = some (bytes.drop offset) := by
  obtain ⟨b, hb, rfl⟩ := Option.map_eq_some_iff.mp h
  simp [Mem.bytesFrom, hb]

theorem Mem.Holds.load (h : m.Holds block bytes) (offset : Nat) :
    m.load ⟨block, offset⟩ = bytes[offset]? := by
  simp [Mem.load, h.bytesFrom]

theorem Mem.Holds.store (h : m.Holds block bytes) (inside : offset < bytes.length) (b : UInt8) :
    ∃ m', m.store ⟨block, offset⟩ b = some m' ∧ m'.Holds block (bytes.set offset b) ∧
      m.OnlyAt block m' := by
  obtain ⟨x, hx, rfl⟩ := Option.map_eq_some_iff.mp h
  refine ⟨⟨m.blocks.set block (x.set offset b)⟩, by simp [Mem.store, hx, inside], ?_, ?_⟩
  · have hlt := (List.getElem?_eq_some_iff.mp hx).1
    simp [Mem.Holds, hlt, Block.set]
  · exact ⟨by simp, fun other hne => by simp [Ne.symm hne]⟩

/-- Every block of `m` is as it was. -/
def Mem.Extends (m' m : Mem) : Prop := ∀ b, b < m.blocks.length → m'.blocks[b]? = m.blocks[b]?

theorem Mem.Extends.of_onlyAt (h : m₁.Extends m) (hblock : m.blocks.length ≤ block)
    (honly : m₁.OnlyAt block m₂) : m₂.Extends m := by
  intro b hb
  rw [honly.others b (by omega)]
  exact h b hb

theorem Mem.Extends.bytesFrom {p : Ptr} (h : m₁.Extends m) (hp : p.block < m.blocks.length) :
    m₁.bytesFrom p = m.bytesFrom p := by
  rw [Mem.bytesFrom, h _ hp, Mem.bytesFrom]

theorem alloc_spec (m : Mem) {size : Nat} (contents : Nat → UInt8) (small : size < 2 ^ 31) :
    ∃ m', m.alloc size contents = some (⟨m.blocks.length, 0⟩, m') ∧
      m'.Holds m.blocks.length ((List.range size).map contents) ∧ m'.Extends m ∧
      m'.blocks.length = m.blocks.length + 1 := by
  refine ⟨_, dif_pos small, by simp [Mem.Holds], fun b hb => ?_, by simp⟩
  exact List.getElem?_append_left hb

theorem free_spec (h : m.Holds block bytes) :
    ∃ m', m.free ⟨block, 0⟩ = some m' ∧ m.OnlyAt block m' := by
  obtain ⟨x, hx, -⟩ := Option.map_eq_some_iff.mp h
  have hlt := (List.getElem?_eq_some_iff.mp hx).1
  exact ⟨_, if_pos ⟨rfl, hlt⟩, by simp, fun b hne => by simp [Ne.symm hne]⟩

/-! ## The functions of string.h -/

theorem cstring_eq (h : m.Holds block bytes) (h0 : 0 ∈ bytes.drop offset) :
    cstring m ⟨block, offset⟩ = some (ofMemory (bytes.drop offset)).bytes := by
  have hend : ∃ b ∈ bytes.drop offset, decide (b ≠ 0) = false := ⟨0, h0, by simp⟩
  have hscan := scan_eq (· ≠ 0) hend
  have htake := List.prefix_iff_eq_take.mp (List.takeWhile_prefix (l := bytes.drop offset) (· ≠ 0))
  change (m.bytesFrom ⟨block, offset⟩).bind _ = _
  rw [h.bytesFrom, Option.bind_some]
  change (scan _ _).bind _ = _
  rw [hscan]
  exact congrArg some htake.symm

/-- A pointer to a string: its bytes, the terminator and whatever follows. -/
theorem cstring_some {p : Ptr} {text : List UInt8} (h : cstring m p = some text) :
    (∃ rest, m.bytesFrom p = some (text ++ 0 :: rest)) ∧ 0 ∉ text ∧
      strlen m p = some text.length := by
  obtain ⟨bytes, hbytes, h⟩ := Option.bind_eq_some_iff.mp h
  obtain ⟨n, hscan, htext⟩ := Option.bind_eq_some_iff.mp h
  obtain ⟨w, b, rest, rfl, rfl, hb, hw⟩ := scan_some hscan
  have hb0 : b = 0 := by simpa using hb
  obtain rfl : w = text := by simpa using htext
  refine ⟨⟨rest, by rw [hbytes, hb0]⟩, fun h0 => by simpa using hw 0 h0, ?_⟩
  rw [strlen, hbytes]
  exact hscan

/-- What lies behind a pointer is part of one object. -/
theorem length_bytesFrom_lt {p : Ptr} (h : m.bytesFrom p = some bytes) :
    bytes.length < 2 ^ 31 ∧ p.block < m.blocks.length := by
  obtain ⟨x, hx, rfl⟩ := Option.map_eq_some_iff.mp h
  have hsmall := x.small
  refine ⟨?_, (List.getElem?_eq_some_iff.mp hx).1⟩
  rw [List.length_drop]
  omega

theorem bytesFrom_add {p : Ptr} {b : UInt8} (h : m.bytesFrom p = some (b :: bytes)) :
    m.bytesFrom (p.add 1) = some bytes := by
  obtain ⟨x, hx, hdrop⟩ := Option.map_eq_some_iff.mp h
  simp only [Mem.bytesFrom, Ptr.add, hx, Option.map_some]
  rw [← List.drop_drop, hdrop]
  rfl

theorem Mem.OnlyAt.bytesFrom {p : Ptr} (h : m.OnlyAt block m₁) (hne : p.block ≠ block) :
    m₁.bytesFrom p = m.bytesFrom p := by
  rw [Mem.bytesFrom, h.others _ hne, Mem.bytesFrom]

/-- Copying `n` bytes none of which is a terminator, into a block other than their own. -/
theorem strncpy_spec {src : Ptr} {w rest done todo tail : List UInt8} (h0 : 0 ∉ w)
    (hne : src.block ≠ block) (hsrc : m.bytesFrom src = some (w ++ rest))
    (hdst : m.Holds block (done ++ todo ++ tail)) (hlen : todo.length = w.length) :
    ∃ m', strncpy m ⟨block, done.length⟩ src w.length = some m' ∧
      m'.Holds block (done ++ w ++ tail) ∧ m.OnlyAt block m' := by
  induction w generalizing m src done todo with
  | nil =>
    obtain rfl := List.eq_nil_of_length_eq_zero hlen
    exact ⟨m, rfl, hdst, .refl block m⟩
  | cons b w ih =>
    obtain ⟨t, todo, rfl⟩ := List.exists_cons_of_length_eq_add_one hlen
    have hb : b ≠ 0 := by
      rintro rfl
      exact h0 List.mem_cons_self
    have hload : m.load src = some b := by simp [Mem.load, hsrc]
    have hinside : done.length < (done ++ t :: todo ++ tail).length := by simp
    obtain ⟨m₁, hstore, hholds, honly⟩ := hdst.store hinside b
    have hholds' : m₁.Holds block ((done ++ [b]) ++ todo ++ tail) := by simpa using hholds
    have hne' : (src.add 1).block ≠ block := hne
    have hsrc' : m₁.bytesFrom (src.add 1) = some (w ++ rest) :=
      (honly.bytesFrom hne').trans (bytesFrom_add hsrc)
    obtain ⟨m₂, hcopy, hholds₂, honly₂⟩ := ih (fun hm => h0 (List.mem_cons_of_mem b hm)) hne'
      hsrc' hholds' (by simpa using hlen)
    refine ⟨m₂, ?_, by simpa using hholds₂, honly.trans honly₂⟩
    rw [List.length_append, List.length_singleton] at hcopy
    simp only [List.length_cons, strncpy, hload, hstore, hb, Option.bind_eq_bind,
      Option.bind_some, if_false]
    exact hcopy

/-- A scan over bytes that differ from 0 keeps the terminator ahead. -/
theorem zero_mem_dropWhile (pred : UInt8 → Bool) {bytes : List UInt8} (h0 : pred 0 = false)
    (h : 0 ∈ bytes) : 0 ∈ bytes.drop (bytes.takeWhile pred).length := by
  have hsplit : bytes.takeWhile pred ++ bytes.drop (bytes.takeWhile pred).length = bytes := by
    conv_rhs => rw [← List.take_append_drop (bytes.takeWhile pred).length bytes]
    rw [← List.prefix_iff_eq_take.mp (List.takeWhile_prefix pred)]
  rw [← hsplit] at h
  rcases List.mem_append.mp h with hpassed | hahead
  · have := List.mem_takeWhile_imp hpassed
    rw [h0] at this
    cases this
  · exact hahead

/-- A call of `strtok` in memory is the call on the bytes of the block, as long as a terminator
lies ahead. -/
theorem strtok_refines {delim : UInt8} {s s' : Scanner} {pch : Option Nat} (hd : delim ≠ 0)
    (h : m.Holds block s.buffer) (h0 : 0 ∈ s.buffer.drop s.saved)
    (hcall : CString.strtok delim s = (pch, s')) :
    ∃ m', strtok m delim ⟨block, s.saved⟩ = some (pch.map (⟨block, ·⟩), ⟨block, s'.saved⟩, m') ∧
      m'.Holds block s'.buffer ∧ m.OnlyAt block m' := by
  have hskip : scan (· = delim) (s.buffer.drop s.saved) = some _ :=
    scan_eq _ ⟨0, h0, by simpa using Ne.symm hd⟩
  have hahead := zero_mem_dropWhile (· = delim) (by simpa using Ne.symm hd) h0
  rw [List.drop_drop] at hahead
  unfold strtok
  rw [h.bytesFrom]
  simp only [Option.bind_eq_bind, Option.bind_some, hskip, Ptr.add, h.load, h.bytesFrom]
  unfold CString.strtok at hcall
  generalize s.saved + ((s.buffer.drop s.saved).takeWhile (· = delim)).length = start at *
  have hend : ∃ b ∈ s.buffer.drop start, decide (b ≠ delim ∧ b ≠ 0) = false := ⟨0, hahead, by simp⟩
  have hlt := takeWhile_length_lt hend
  simp only [wordLength] at hcall
  simp only [scan_eq _ hend, Option.bind_some]
  obtain ⟨length, hlength⟩ : ∃ n,
      ((s.buffer.drop start).takeWhile fun b => b ≠ delim ∧ b ≠ 0).length = n := ⟨_, rfl⟩
  simp only [hlength] at hcall hlt ⊢
  rw [List.length_drop] at hlt
  have hstart : start < s.buffer.length := by omega
  have hstop : start + length < s.buffer.length := by omega
  simp only [List.getElem?_eq_getElem hstart, List.getElem?_eq_getElem hstop, Option.bind_some,
    Option.some.injEq] at hcall ⊢
  split at hcall
  · obtain ⟨rfl, rfl⟩ := Prod.mk.inj hcall
    rw [if_pos (by assumption)]
    exact ⟨m, rfl, h, .refl block m⟩
  · rw [if_neg (by assumption)]
    split at hcall
    · obtain ⟨rfl, rfl⟩ := Prod.mk.inj hcall
      rw [if_pos (by assumption)]
      exact ⟨m, rfl, h, .refl block m⟩
    · obtain ⟨rfl, rfl⟩ := Prod.mk.inj hcall
      obtain ⟨m', hstore, hholds, honly⟩ := h.store hstop 0
      rw [if_neg (by assumption), hstore]
      exact ⟨m', rfl, hholds, honly⟩

end ByteMemory
