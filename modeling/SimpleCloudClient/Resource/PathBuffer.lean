import SimpleCloudClient.Library.ByteMemory
import SimpleCloudClient.Resource.PathIds

/-!
# path_to_ids in memory

The function copies the path into a block of `len + 1` bytes, lets `strtok` cut the copy into
words, and frees it. It is run on memory here, with every access checked, and refines the
reading of a byte list: split at every slash, drop what is empty, keep three, `atoi` each.
-/
namespace SimpleCloudClient
open CString ByteMemory

/-- The `while` loop; `todo` is `3 - index`. -/
def writeIds : Nat → Option Ptr → Ptr → Mem → Ids → Option (Ids × Mem)
  | 0, _, _, m, ids => some (ids, m)
  | _ + 1, none, _, m, ids => some (ids, m)
  | todo + 1, some pch, saved, m, ids => do
    let text ← cstring m pch
    let ids := ids.write (2 - todo) (UInt32.ofInt (atoi text))
    let (pch, saved, m) ← ByteMemory.strtok m slash saved
    writeIds todo pch saved m ids

/-- `int len = strlen(path)`; there is no result for a length that an `int` cannot hold. -/
def intLength (m : Mem) (path : Ptr) : Option Nat := do
  let length ← strlen m path
  if length < 2 ^ 31 then return length else none

/-- `contents` is what the allocated memory holds, and `ids` what the outputs hold. -/
def pathToIdsIn (contents : Nat → UInt8) (path : Ptr) (ids : Ids) (m : Mem) :
    Option (Ids × Mem) := do
  let len ← intLength m path
  let (buffer, m) ← m.alloc (len + 1) contents
  let m ← m.store (buffer.add len) 0
  let m ← strncpy m buffer path len
  let (pch, saved, m) ← ByteMemory.strtok m slash buffer
  let (ids, m) ← writeIds 3 pch saved m ids
  let m ← m.free buffer
  return (ids, m)

/-! ## The loop -/

variable {m : Mem} {block : Nat} {s s' : Scanner} {pch : Option Nat} {start : Nat}

theorem strtok_start_le (h : CString.strtok slash s = (some start, s')) : start ≤ s'.saved := by
  unfold CString.strtok at h
  simp only at h
  split at h
  · cases h
  · split at h <;> (obtain ⟨⟨⟩, rfl⟩ := Prod.mk.inj h; simp only; omega)

/-- The scanner is in front of text that ends in a terminator, behind the word at hand. -/
def Scanning (s : Scanner) (pch : Option Nat) : Prop :=
  ∀ start, pch = some start → start ≤ s.saved ∧ ∃ rest, s.Rest rest

theorem scanning_strtok {rest : List UInt8} (h : s.Rest rest)
    (hcall : CString.strtok slash s = (pch, s')) : Scanning s' pch := by
  rintro start rfl
  refine ⟨strtok_start_le hcall, ?_⟩
  cases hw : words slash rest with
  | nil =>
    obtain ⟨s'', hnil⟩ := strtok_nil (by decide : slash ≠ 0) h hw
    rw [hnil] at hcall
    cases hcall
  | cons w ws =>
    obtain ⟨start', s'', y⟩ := strtok_cons (by decide : slash ≠ 0) h hw
    obtain ⟨-, rfl⟩ := Prod.mk.inj (y.call.symm.trans hcall)
    obtain ⟨rest', hrest', -⟩ := y.rest
    exact ⟨rest', hrest'⟩

theorem zero_mem_rest {rest : List UInt8} (h : s.Rest rest) (hle : start ≤ s.saved) :
    0 ∈ s.buffer.drop start := by
  have hsplit : s.buffer.drop s.saved = (s.buffer.drop start).drop (s.saved - start) := by
    rw [List.drop_drop, Nat.add_sub_cancel' hle]
  have hmem : 0 ∈ s.buffer.drop s.saved := by simp [h.2]
  rw [hsplit] at hmem
  exact List.mem_of_mem_drop hmem

/-- The loop in memory is the loop on the bytes of the block. -/
theorem writeIds_refines (todo : Nat) (ids : Ids) (h : m.Holds block s.buffer)
    (hscan : Scanning s pch) : ∃ m' bytes,
      writeIds todo (pch.map (⟨block, ·⟩)) ⟨block, s.saved⟩ m ids =
        some (scanIds todo pch s ids, m') ∧ m'.Holds block bytes ∧ m.OnlyAt block m' := by
  induction todo generalizing m s pch ids with
  | zero => exact ⟨m, s.buffer, by simp [writeIds, scanIds], h, .refl block m⟩
  | succ todo ih =>
    cases pch with
    | none => exact ⟨m, s.buffer, rfl, h, .refl block m⟩
    | some start =>
      obtain ⟨hle, rest, hrest⟩ := hscan start rfl
      have htext := cstring_eq h (zero_mem_rest hrest hle)
      obtain ⟨⟨pch', s'⟩, hcall⟩ : ∃ r, CString.strtok slash s = r := ⟨_, rfl⟩
      obtain ⟨m₁, hstrtok, hholds, honly⟩ :=
        strtok_refines (by decide : slash ≠ 0) h (zero_mem_rest hrest le_rfl) hcall
      obtain ⟨m₂, bytes, hloop, hholds₂, honly₂⟩ :=
        ih (ids.write (2 - todo) (idOf (s.textAt start))) hholds (scanning_strtok hrest hcall)
      refine ⟨m₂, bytes, ?_, hholds₂, honly.trans honly₂⟩
      rw [scanIds, hcall, ← hloop]
      simp only [writeIds, Option.map_some, htext, hstrtok, Option.bind_eq_bind, Option.bind_some]
      rfl

/-! ## The whole call -/

/-- What the outputs should hold: the first three non-empty parts, each through `atoi`, and
what they held before where there is no part. -/
def reference (path : Text) (ids : Ids) : Ids where
  objectId := ((words slash path.bytes)[0]?.map idOf).getD ids.objectId
  instanceId := ((words slash path.bytes)[1]?.map idOf).getD ids.instanceId
  resourceId := ((words slash path.bytes)[2]?.map idOf).getD ids.resourceId

theorem pathToIds_eq_reference (path : Text) (ids : Ids) :
    pathToIds path ids = reference path ids := by
  rw [pathToIds_words, reference]
  match words slash path.bytes with
  | [] => rfl
  | [a] => rfl
  | [a, b] => rfl
  | a :: b :: c :: more => rfl

/-- A path that differs in slashes, or behind its third part. -/
inductive SameParts (path : Text) : Text → Prop
  | leading {path' : Text} : path'.bytes = slash :: path.bytes → SameParts path path'
  | trailing {path' : Text} : path'.bytes = path.bytes ++ [slash] → SameParts path path'
  | repeated {path' : Text} {front back : List UInt8} : path.bytes = front ++ slash :: back →
      path'.bytes = front ++ slash :: slash :: back → SameParts path path'
  | more {path' : Text} {tail : List UInt8} : 3 ≤ (words slash path.bytes).length →
      path'.bytes = path.bytes ++ slash :: tail → SameParts path path'

theorem SameParts.reference_eq {path path' : Text} (h : SameParts path path') (ids : Ids) :
    reference path' ids = reference path ids := by
  cases h with
  | leading hpath => simp only [reference, hpath, words_delim]
  | trailing hpath => simp [reference, hpath, words_append]
  | repeated hpath hpath' => simp only [reference, hpath, hpath', words_append, words_delim]
  | more hthree hpath =>
    have hget {i : Nat} (hi : i < 3) (more : List (List UInt8)) :
        (words slash path.bytes ++ more)[i]? = (words slash path.bytes)[i]? :=
      List.getElem?_append_left (by omega)
    simp [reference, hpath, words_append, hget]

/-- The copy: `len + 1` fresh bytes, the last one set to 0, the others to the path. -/
theorem copy_spec {p : Ptr} {path : Text} (h : cstring m p = some path.bytes)
    (contents : Nat → UInt8) : ∃ m₁ m₂ m₃,
      intLength m p = some path.bytes.length ∧
      m.alloc (path.bytes.length + 1) contents = some (⟨m.blocks.length, 0⟩, m₁) ∧
      m₁.store ⟨m.blocks.length, path.bytes.length⟩ 0 = some m₂ ∧
      strncpy m₂ ⟨m.blocks.length, 0⟩ p path.bytes.length = some m₃ ∧
      m₃.Holds m.blocks.length (path.bytes ++ [0]) ∧ m₃.Extends m := by
  obtain ⟨⟨rest, hbytes⟩, h0, hstrlen⟩ := cstring_some h
  obtain ⟨hsmall, hblock⟩ := length_bytesFrom_lt hbytes
  simp only [List.length_append, List.length_cons] at hsmall
  have hlen : intLength m p = some path.bytes.length := by
    have hfits : path.bytes.length < 2 ^ 31 := by omega
    simp only [intLength, hstrlen, Option.bind_eq_bind, Option.bind_some, if_pos hfits]
    rfl
  obtain ⟨m₁, halloc, hholds₁, hext₁, -⟩ :=
    alloc_spec m contents (by omega : path.bytes.length + 1 < 2 ^ 31)
  obtain ⟨m₂, hstore, hholds₂, honly₂⟩ :=
    hholds₁.store (by simp : path.bytes.length < _) 0
  have hext₂ := hext₁.of_onlyAt le_rfl honly₂
  have hset : ((List.range (path.bytes.length + 1)).map contents).set path.bytes.length 0 =
      [] ++ (List.range path.bytes.length).map contents ++ [0] := by
    rw [List.range_succ, List.map_append, List.set_append_right _ _ (by simp)]
    simp
  rw [hset] at hholds₂
  obtain ⟨m₃, hcopy, hholds₃, honly₃⟩ := strncpy_spec h0 (by omega : p.block ≠ _)
    ((hext₂.bytesFrom hblock).trans hbytes) hholds₂ (by simp)
  exact ⟨m₁, m₂, m₃, hlen, halloc, hstore, hcopy, by simpa using hholds₃,
    hext₂.of_onlyAt le_rfl honly₃⟩

/-- For every memory and every pointer to a terminated path, whatever the copy held before: the
call has a result, so no access lies outside the copy or the path; the outputs are as the
reference says; every block that was there, the path among them, is as it was. Slashes in front,
behind or doubled and parts after the third make no difference. -/
theorem pathToIdsIn_refines (contents : Nat → UInt8) (m : Mem) (p : Ptr) (path : Text)
    (h : cstring m p = some path.bytes) (ids : Ids) :
    (∃ m', pathToIdsIn contents p ids m = some (reference path ids, m') ∧ m'.Extends m) ∧
      ∀ path', SameParts path path' → reference path' ids = reference path ids := by
  refine ⟨?_, fun path' hsame => hsame.reference_eq ids⟩
  obtain ⟨m₁, m₂, m₃, hlen, halloc, hstore, hcopy, hholds, hext⟩ := copy_spec h contents
  let s : Scanner := ⟨path.bytes ++ [0], 0⟩
  have hrest : s.Rest path.bytes := ⟨path.noNul, rfl⟩
  obtain ⟨⟨pch, s'⟩, hcall⟩ : ∃ r, CString.strtok slash s = r := ⟨_, rfl⟩
  obtain ⟨m₄, hstrtok, hholds₄, honly₄⟩ :=
    strtok_refines (by decide : slash ≠ 0) hholds (zero_mem_rest hrest le_rfl) hcall
  obtain ⟨m₅, bytes, hloop, hholds₅, honly₅⟩ :=
    writeIds_refines 3 ids hholds₄ (scanning_strtok hrest hcall)
  obtain ⟨m₆, hfree, honly₆⟩ := free_spec hholds₅
  refine ⟨m₆, ?_, ((hext.of_onlyAt le_rfl honly₄).of_onlyAt le_rfl honly₅).of_onlyAt le_rfl honly₆⟩
  have hids : scanIds 3 pch s' ids = reference path ids := by
    rw [← pathToIds_eq_reference, pathToIds, hcall]
  rw [hids] at hloop
  have hfirst : ByteMemory.strtok m₃ slash ⟨m.blocks.length, 0⟩ = _ := hstrtok
  simp only [pathToIdsIn, hlen, halloc, Ptr.add, Nat.zero_add, hstore, hcopy, hfirst, hloop,
    hfree, Option.bind_eq_bind, Option.bind_some]
  rfl

/-- The path "/3//4" in a block with more bytes behind it: two ids are written, the third stays. -/
theorem pathToIdsIn_refines_two : ∃ (m m' : Mem) (path : Text),
    cstring m ⟨0, 1⟩ = some [47, 51, 47, 47, 52] ∧
    pathToIdsIn (fun _ => 170) ⟨0, 1⟩ ⟨7, 8, 9⟩ m = some (reference path ⟨7, 8, 9⟩, m') ∧
    reference path ⟨7, 8, 9⟩ = ⟨3, 4, 9⟩ ∧ m'.Extends m := by
  let m : Mem := ⟨[⟨[1, 47, 51, 47, 47, 52, 0, 2], by decide⟩]⟩
  let path : Text := ⟨[47, 51, 47, 47, 52], by decide⟩
  have h : cstring m ⟨0, 1⟩ = some path.bytes := by decide
  obtain ⟨⟨m', hcall, hext⟩, -⟩ := pathToIdsIn_refines (fun _ => 170) m ⟨0, 1⟩ path h ⟨7, 8, 9⟩
  exact ⟨m, m', path, h, hcall, by decide, hext⟩

end SimpleCloudClient
