import SimpleCloudClient.Library.CString

/-!
# Splitting a buffer with `strtok`

`strtok` scans a NUL-terminated buffer in place: it skips delimiters, overwrites the one that
ends a word with a terminator, and saves where to resume. `words` is the pure reading: split at
every delimiter and drop what is empty. `Rest` relates the two, naming the bytes in front of the
terminator that a scan has not consumed yet; each call hands out the next word of the rest.
-/
namespace CString

/-- The non-empty parts between delimiters. -/
def words (delim : UInt8) (text : List UInt8) : List (List UInt8) :=
  (text.splitOn delim).filter (· ≠ [])

variable {delim : UInt8}

@[simp] theorem words_nil : words delim [] = [] := by simp [words]

theorem words_append (text text' : List UInt8) :
    words delim (text ++ delim :: text') = words delim text ++ words delim text' := by
  simp [words, List.splitOn_append_cons_self]

theorem words_delim (text : List UInt8) : words delim (delim :: text) = words delim text := by
  simpa using words_append [] text

/-- Leading delimiters do not matter. -/
theorem words_dropWhile (text : List UInt8) :
    words delim (text.dropWhile (· = delim)) = words delim text := by
  induction text with
  | nil => rfl
  | cons b bs ih =>
    by_cases hb : b = delim
    · subst hb
      simpa [words_delim] using ih
    · simp [hb]

theorem words_word {w : List UInt8} (hne : w ≠ []) (hw : delim ∉ w) : words delim w = [w] := by
  simp [words, List.splitOn_eq_singleton hw, hne]

/-- A word ends at the delimiter after it. -/
theorem words_word_append {w : List UInt8} (hne : w ≠ []) (hw : delim ∉ w) (text : List UInt8) :
    words delim (w ++ delim :: text) = w :: words delim text := by
  simp [words, List.splitOn_append_cons_self_of_not_mem hw, hne]

/-! ## The scanner -/

/-- The buffer and the position that `strtok` keeps between calls. -/
structure Scanner where
  buffer : List UInt8
  saved : Nat
  deriving DecidableEq

/-- The number of bytes `strcspn` passes over: neither the delimiter nor the terminator. -/
def wordLength (delim : UInt8) (memory : List UInt8) : Nat :=
  (memory.takeWhile fun b => b ≠ delim ∧ b ≠ 0).length

/-- One call: the position of the word found, or NULL, and the scanner after it. -/
def strtok (delim : UInt8) (s : Scanner) : Option Nat × Scanner :=
  let start := s.saved + ((s.buffer.drop s.saved).takeWhile (· = delim)).length
  let stop := start + wordLength delim (s.buffer.drop start)
  if s.buffer[start]? = some 0 then (none, { s with saved := start })
  else if s.buffer[stop]? = some 0 then (some start, { s with saved := stop })
  else (some start, { buffer := s.buffer.set stop 0, saved := stop + 1 })

/-- The text a pointer into the buffer denotes. -/
def Scanner.textAt (s : Scanner) (pos : Nat) : List UInt8 := (ofMemory (s.buffer.drop pos)).bytes

/-- The bytes in front of the terminator that the scan has not consumed. -/
def Scanner.Rest (s : Scanner) (rest : List UInt8) : Prop :=
  0 ∉ rest ∧ s.buffer.drop s.saved = rest ++ [0]

/-- What one call hands out when the words of the rest are `w` and then `ws`. -/
structure Scanner.Yields (s : Scanner) (delim : UInt8) (w : List UInt8) (ws : List (List UInt8))
    (start : Nat) (s' : Scanner) : Prop where
  call : strtok delim s = (some start, s')
  word : s'.textAt start = w
  rest : ∃ rest, s'.Rest rest ∧ words delim rest = ws
  length : s'.buffer.length = s.buffer.length
  inside : start < s.buffer.length

/-- Text splits into leading delimiters and a part that does not start with one. -/
private theorem exists_skip (delim : UInt8) (text : List UInt8) :
    ∃ skip more, text = skip ++ more ∧ (∀ b ∈ skip, b = delim) ∧
      (∀ b, more.head? = some b → b ≠ delim) ∧ words delim more = words delim text := by
  refine ⟨text.takeWhile (· = delim), text.dropWhile (· = delim),
    List.takeWhile_append_dropWhile.symm, fun b hb => ?_, fun b hb => ?_, words_dropWhile text⟩
  · simpa using List.mem_takeWhile_imp hb
  · have := List.head?_dropWhile_not (p := (· = delim)) text
    rw [hb] at this
    simpa using this

/-- Text that starts with a word: the word, then the end or a delimiter and more text. -/
private theorem exists_word {text : List UInt8} (hne : text ≠ [])
    (hhead : ∀ b, text.head? = some b → b ≠ delim) :
    ∃ w, w ≠ [] ∧ delim ∉ w ∧ (text = w ∨ ∃ more, text = w ++ delim :: more) := by
  have hsplit : text.takeWhile (· ≠ delim) ++ text.dropWhile (· ≠ delim) = text :=
    List.takeWhile_append_dropWhile
  refine ⟨text.takeWhile (· ≠ delim), ?_, fun hmem => ?_, ?_⟩
  · cases text with
    | nil => exact absurd rfl hne
    | cons b bs => simp [hhead b rfl]
  · simpa using List.mem_takeWhile_imp hmem
  · cases hrest : text.dropWhile (· ≠ delim) with
    | nil => exact .inl (by rw [hrest, List.append_nil] at hsplit; exact hsplit.symm)
    | cons b bs =>
      have hb := List.head?_dropWhile_not (p := (· ≠ delim)) text
      rw [hrest] at hb
      have hb : b = delim := by simpa using hb
      subst hb
      exact .inr ⟨bs, by rw [← hrest, hsplit]⟩

/-- Skipping delimiters: the position where the next word starts and what the buffer holds
from there. -/
private theorem rest_start {s : Scanner} {skip more : List UInt8} (hd : delim ≠ 0)
    (h : s.Rest (skip ++ more)) (hskip : ∀ b ∈ skip, b = delim)
    (hmore : ∀ b, more.head? = some b → b ≠ delim) :
    ((s.buffer.drop s.saved).takeWhile (· = delim)).length = skip.length ∧
      s.buffer.drop (s.saved + skip.length) = more ++ [0] := by
  obtain ⟨-, hdrop⟩ := h
  constructor
  · rw [hdrop, List.append_assoc, List.takeWhile_append_of_pos (by simpa using hskip)]
    cases more with
    | nil => simp [Ne.symm hd]
    | cons b bs => simp [hmore b rfl]
  · rw [← List.drop_drop, hdrop, List.append_assoc]
    simp

private theorem wordLength_append {w more : List UInt8} (hw : delim ∉ w) (h0 : 0 ∉ w)
    (hmore : ∀ b, more.head? = some b → b = delim ∨ b = 0) :
    wordLength delim (w ++ more) = w.length := by
  unfold wordLength
  rw [List.takeWhile_append_of_pos]
  · cases more with
    | nil => simp
    | cons b bs => rcases hmore b rfl with rfl | rfl <;> simp
  · intro b hb
    have h1 : b ≠ delim := by rintro rfl; exact hw hb
    have h2 : b ≠ 0 := by rintro rfl; exact h0 hb
    simp [h1, h2]

private theorem getElem?_of_drop {memory more : List UInt8} {pos : Nat}
    (h : memory.drop pos = more) (k : Nat) : memory[pos + k]? = more[k]? := by
  rw [← h, List.getElem?_drop]

/-- With no words left the call returns NULL. -/
theorem strtok_nil {s : Scanner} {rest : List UInt8} (hd : delim ≠ 0) (h : s.Rest rest)
    (hw : words delim rest = []) : ∃ s', strtok delim s = (none, s') := by
  obtain ⟨skip, more, rfl, hskip, hmore, hwords⟩ := exists_skip delim rest
  obtain ⟨hlen, hdrop⟩ := rest_start hd h hskip hmore
  have hnil : more = [] := by
    by_contra hne
    obtain ⟨w, hwne, hwd, rfl | ⟨tail, rfl⟩⟩ := exists_word hne hmore
    · rw [← hwords, words_word hwne hwd] at hw
      exact List.cons_ne_nil _ _ hw
    · rw [← hwords, words_word_append hwne hwd] at hw
      exact List.cons_ne_nil _ _ hw
  have hget : s.buffer[s.saved + skip.length]? = some 0 := by
    simpa [hnil] using getElem?_of_drop hdrop 0
  exact ⟨_, by simp only [strtok, hlen, if_pos hget]; rfl⟩

/-- The last word runs up to the terminator. -/
private theorem strtok_last {s : Scanner} {start : Nat} {w : List UInt8}
    (hw : delim ∉ w) (h0 : 0 ∉ w) (hdrop : s.buffer.drop start = w ++ [0])
    (hstart : start = s.saved + ((s.buffer.drop s.saved).takeWhile (· = delim)).length)
    (hfirst : s.buffer[start]? ≠ some 0) (hinside : start < s.buffer.length) :
    s.Yields delim w [] start { s with saved := start + w.length } where
  call := by
    have hlen : wordLength delim (s.buffer.drop start) = w.length := by
      rw [hdrop]
      exact wordLength_append hw h0 (by simp)
    have hlast : s.buffer[start + w.length]? = some 0 := by
      simpa using getElem?_of_drop hdrop w.length
    simp only [strtok, ← hstart, if_neg hfirst, hlen, if_pos hlast]
  word := by
    simp only [Scanner.textAt, hdrop]
    exact ofMemory_append h0 []
  rest := by
    refine ⟨[], ⟨by simp, ?_⟩, words_nil⟩
    rw [← List.drop_drop, hdrop]
    simp
  length := rfl
  inside := hinside

/-- Any other word ends at a delimiter, which the call overwrites. -/
private theorem strtok_more {s : Scanner} {start : Nat} {w more : List UInt8} (hd : delim ≠ 0)
    (hw : delim ∉ w) (h0 : 0 ∉ w) (hmore : 0 ∉ more)
    (hdrop : s.buffer.drop start = w ++ delim :: (more ++ [0]))
    (hstart : start = s.saved + ((s.buffer.drop s.saved).takeWhile (· = delim)).length)
    (hfirst : s.buffer[start]? ≠ some 0) (hinside : start < s.buffer.length) :
    s.Yields delim w (words delim more) start
      { buffer := s.buffer.set (start + w.length) 0, saved := start + w.length + 1 } := by
  have hset : (s.buffer.set (start + w.length) 0).drop start = w ++ 0 :: (more ++ [0]) := by
    rw [List.drop_set, if_neg (by omega), hdrop]
    simp
  refine ⟨?_, ?_, ⟨more, ⟨hmore, ?_⟩, rfl⟩, by simp, hinside⟩
  · have hlen : wordLength delim (s.buffer.drop start) = w.length := by
      rw [hdrop]
      exact wordLength_append hw h0 (by simp)
    have hstop : s.buffer[start + w.length]? = some delim := by
      simpa using getElem?_of_drop hdrop w.length
    have hstop0 : s.buffer[start + w.length]? ≠ some 0 := by
      rw [hstop]
      exact fun hb => hd (Option.some.inj hb)
    simp only [strtok, ← hstart, if_neg hfirst, hlen, if_neg hstop0]
  · simp only [Scanner.textAt, hset]
    exact ofMemory_append h0 _
  · change (s.buffer.set (start + w.length) 0).drop (start + w.length + 1) = more ++ [0]
    rw [Nat.add_assoc, ← List.drop_drop, hset]
    simp

/-- The next call hands out the first word of the rest and leaves the rest of the words. -/
theorem strtok_cons {s : Scanner} {rest w : List UInt8} {ws : List (List UInt8)} (hd : delim ≠ 0)
    (h : s.Rest rest) (hw : words delim rest = w :: ws) :
    ∃ start s', s.Yields delim w ws start s' := by
  obtain ⟨skip, more, rfl, hskip, hmore, hwords⟩ := exists_skip delim rest
  obtain ⟨hlen, hdrop⟩ := rest_start hd h hskip hmore
  have h0 : 0 ∉ more := fun hm => h.1 (List.mem_append_right _ hm)
  rw [← hwords] at hw
  have hne : more ≠ [] := by
    rintro rfl
    simp at hw
  have hfirst : s.buffer[s.saved + skip.length]? ≠ some 0 := by
    obtain ⟨b, bs, rfl⟩ := List.exists_cons_of_ne_nil hne
    have hget : s.buffer[s.saved + skip.length]? = some b := by
      simpa using getElem?_of_drop hdrop 0
    rw [hget]
    rintro ⟨⟩
    exact h0 List.mem_cons_self
  have hinside : s.saved + skip.length < s.buffer.length := by
    by_contra hlt
    rw [List.drop_eq_nil_of_le (by omega)] at hdrop
    simp at hdrop
  obtain ⟨v, hvne, hvd, rfl | ⟨tail, rfl⟩⟩ := exists_word hne hmore
  · rw [words_word hvne hvd] at hw
    obtain ⟨rfl, rfl⟩ := List.cons.inj hw
    exact ⟨_, _, strtok_last hvd h0 hdrop (by rw [hlen]) hfirst hinside⟩
  · rw [words_word_append hvne hvd] at hw
    obtain ⟨rfl, rfl⟩ := List.cons.inj hw
    exact ⟨_, _, strtok_more hd hvd (fun hm => h0 (by simp [hm])) (fun hm => h0 (by simp [hm]))
      (by simpa using hdrop) (by rw [hlen]) hfirst hinside⟩

end CString
