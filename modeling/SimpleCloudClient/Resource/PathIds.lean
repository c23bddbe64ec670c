import SimpleCloudClient.Library.Strtok

/-!
# From a path to object, instance and resource ids

`pathToIds` copies the path into a buffer and scans it with `strtok`. It writes one id per word
and stops after three, so an output keeps its previous contents when the path has fewer words.
-/
namespace SimpleCloudClient
open CString

/-- The ids a resource is registered under, as they stand in `mcc_resource_def`. -/
structure Ids where
  objectId : UInt32
  instanceId : UInt32
  resourceId : UInt32
  deriving DecidableEq, Repr

def slash : UInt8 := 47

/-- `*ptr = value`, where the loop index selects the output. -/
def Ids.write (ids : Ids) (index : Nat) (value : UInt32) : Ids :=
  match index with
  | 0 => { ids with objectId := value }
  | 1 => { ids with instanceId := value }
  | 2 => { ids with resourceId := value }
  | _ => ids

/-- The id read from one word: `atoi` to `int`, stored as `unsigned int`. -/
def idOf (word : List UInt8) : UInt32 := UInt32.ofInt (atoi word)

/-- The loop of `path_to_ids`; `todo` is `3 - index`. -/
def scanIds : Nat → Option Nat → Scanner → Ids → Ids
  | 0, _, _, ids => ids
  | _ + 1, none, _, ids => ids
  | todo + 1, some pch, s, ids =>
    let ids := ids.write (2 - todo) (idOf (s.textAt pch))
    let (pch, s) := strtok slash s
    scanIds todo pch s ids

/-- `path_to_ids`; `ids` is what the three outputs hold before the call. -/
def pathToIds (path : Text) (ids : Ids) : Ids :=
  let buffer := path.bytes ++ [0]
  let (pch, s) := strtok slash ⟨buffer, 0⟩
  scanIds 3 pch s ids

/-- Writes the values to the outputs in order, starting with the one at `index`. -/
def Ids.writeFrom (ids : Ids) (index : Nat) : List UInt32 → Ids
  | [] => ids
  | v :: vs => (ids.write index v).writeFrom (index + 1) vs

/-- The loop is at word `w` and `rest` is what the scanner has left: it writes `w` and then the
next words, as long as there are outputs. -/
theorem scanIds_words {todo : Nat} {s : Scanner} {pch : Nat} {rest : List UInt8} (ids : Ids)
    (htodo : todo ≤ 2) (h : s.Rest rest) :
    scanIds (todo + 1) (some pch) s ids =
      ids.writeFrom (2 - todo)
        ((idOf (s.textAt pch)) :: ((words slash rest).take todo).map idOf) := by
  induction todo generalizing s pch rest ids with
  | zero => simp [scanIds, Ids.writeFrom]
  | succ todo ih =>
    rw [scanIds, Ids.writeFrom]
    have hindex : 2 - (todo + 1) + 1 = 2 - todo := by omega
    cases hw : words slash rest with
    | nil =>
      obtain ⟨s', hcall⟩ := strtok_nil (by decide : slash ≠ 0) h hw
      cases todo <;> simp [hcall, scanIds, Ids.writeFrom]
    | cons w ws =>
      obtain ⟨start, s', y⟩ := strtok_cons (by decide : slash ≠ 0) h hw
      obtain ⟨rest', hrest', rfl⟩ := y.rest
      simp only [y.call, ih _ (by omega) hrest', y.word, hindex, List.take_succ_cons, List.map_cons]

/-- `pathToIds` is the pure reading: split, keep the first three words, convert each. -/
theorem pathToIds_words (path : Text) (ids : Ids) :
    pathToIds path ids = ids.writeFrom 0 (((words slash path.bytes).take 3).map idOf) := by
  have h : Scanner.Rest ⟨path.bytes ++ [0], 0⟩ path.bytes := ⟨path.noNul, rfl⟩
  unfold pathToIds
  cases hw : words slash path.bytes with
  | nil =>
    obtain ⟨s', hcall⟩ := strtok_nil (by decide : slash ≠ 0) h hw
    simp [hcall, scanIds, Ids.writeFrom]
  | cons w ws =>
    obtain ⟨start, s', y⟩ := strtok_cons (by decide : slash ≠ 0) h hw
    obtain ⟨rest', hrest', rfl⟩ := y.rest
    simp only [y.call, scanIds_words _ (Nat.le_refl 2) hrest', y.word, List.take_succ_cons,
      List.map_cons]

/-- With three or more words every output is written and the previous contents do not matter. -/
theorem pathToIds_of_three {path : Text} {a b c : List UInt8} {more : List (List UInt8)}
    (h : words slash path.bytes = a :: b :: c :: more) (ids : Ids) :
    pathToIds path ids = ⟨idOf a, idOf b, idOf c⟩ := by
  simp [pathToIds_words, h, Ids.writeFrom, Ids.write]

/-- With fewer words the last output keeps its previous contents. -/
theorem resourceId_pathToIds {path : Text} (h : (words slash path.bytes).length < 3) (ids : Ids) :
    (pathToIds path ids).resourceId = ids.resourceId := by
  rw [pathToIds_words]
  match hw : words slash path.bytes, h with
  | [], _ => rfl
  | [a], _ => rfl
  | [a, b], _ => rfl

/-! ## Paths that spell three numbers -/

/-- A decimal numeral, leading zeros allowed. -/
structure IsNumeral (digits : List UInt8) (n : Nat) : Prop where
  ne_nil : digits ≠ []
  isDigit : ∀ b ∈ digits, isDigit b = true
  value : CString.value digits = n

/-- The path is three numerals `o/i/r`. -/
def Spells (path : Text) (o i r : Nat) : Prop :=
  ∃ a b c, IsNumeral a o ∧ IsNumeral b i ∧ IsNumeral c r ∧
    path.bytes = a ++ slash :: (b ++ slash :: c)

theorem IsNumeral.slash_notMem {digits : List UInt8} {n : Nat} (h : IsNumeral digits n) :
    slash ∉ digits := fun hm => absurd (h.isDigit slash hm) (by decide)

theorem IsNumeral.idOf {digits : List UInt8} {n : Nat} (h : IsNumeral digits n) (hn : n < 2 ^ 31) :
    idOf digits = UInt32.ofNat n := by
  have hatoi : atoi digits = n := by
    rw [atoi_digits h.isDigit (h.value ▸ hn), h.value]
  rw [SimpleCloudClient.idOf, hatoi]
  have hmod : ((n : Int) % 2 ^ 32).toNat = n := by omega
  rw [UInt32.ofInt, hmod]

theorem Spells.words {path : Text} {o i r : Nat} (h : Spells path o i r) :
    ∃ a b c, IsNumeral a o ∧ IsNumeral b i ∧ IsNumeral c r ∧
      CString.words slash path.bytes = [a, b, c] := by
  obtain ⟨a, b, c, ha, hb, hc, hpath⟩ := h
  refine ⟨a, b, c, ha, hb, hc, ?_⟩
  rw [hpath, words_word_append ha.ne_nil ha.slash_notMem,
    words_word_append hb.ne_nil hb.slash_notMem, words_word hc.ne_nil hc.slash_notMem]

/-- A path spells one triple. -/
theorem Spells.unique {path : Text} {o i r o' i' r' : Nat} (h : Spells path o i r)
    (h' : Spells path o' i' r') : o = o' ∧ i = i' ∧ r = r' := by
  obtain ⟨a, b, c, ha, hb, hc, hw⟩ := h.words
  obtain ⟨a', b', c', ha', hb', hc', hw'⟩ := h'.words
  obtain ⟨rfl, rfl, rfl⟩ : a = a' ∧ b = b' ∧ c = c' := by simpa using hw.symm.trans hw'
  exact ⟨ha.value.symm.trans ha'.value, hb.value.symm.trans hb'.value,
    hc.value.symm.trans hc'.value⟩

theorem pathToIds_spells {path : Text} {o i r : Nat} (h : Spells path o i r) (ho : o < 2 ^ 31)
    (hi : i < 2 ^ 31) (hr : r < 2 ^ 31) (ids : Ids) :
    pathToIds path ids = ⟨UInt32.ofNat o, UInt32.ofNat i, UInt32.ofNat r⟩ := by
  obtain ⟨a, b, c, ha, hb, hc, hw⟩ := h.words
  rw [pathToIds_of_three hw, ha.idOf ho, hb.idOf hi, hc.idOf hr]

end SimpleCloudClient
