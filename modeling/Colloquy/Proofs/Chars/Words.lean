import Colloquy.Proofs.Chars.Trimmed

/-!
# Words of a text

Three ways of reading a text by its blanks: its words, what follows its first word, and what is
left when it is trimmed. All of them agree on where a word ends and the next one begins, however
many blanks of whatever kind stand in between.
-/

namespace Colloquy.Chars

/-- A text without blanks that is not empty. -/
structure IsWord (cs : List Char) : Prop where
  ne_nil : cs ≠ []
  unbroken : ∀ c ∈ cs, isBlank c = false

instance : DecidablePred IsWord := fun cs =>
  decidable_of_iff (cs ≠ [] ∧ (cs.all fun c => ! isBlank c) = true)
    ⟨fun h => ⟨h.1, by simpa using h.2⟩, fun h => ⟨h.ne_nil, by simpa using h.unbroken⟩⟩

/-- Blanks, any number of them. -/
def IsGap (cs : List Char) : Prop :=
  ∀ c ∈ cs, isBlank c = true

instance : DecidablePred IsGap := fun cs =>
  List.decidableBAll (fun c => isBlank c = true) cs

/-- A text ends or goes on with a blank. -/
def Breaks (rest : List Char) : Prop :=
  ∀ c ∈ rest.head?, isBlank c = true

theorem breaks_nil : Breaks [] := by
  simp [Breaks]

theorem IsGap.breaks {gap : List Char} (h : IsGap gap) (hne : gap ≠ []) (rest : List Char) :
    Breaks (gap ++ rest) := by
  intro c hc
  rw [List.head?_append_of_ne_nil _ hne] at hc
  exact h c (List.mem_of_mem_head? hc)

theorem IsGap.append {front back : List Char} (hfront : IsGap front) (hback : IsGap back) :
    IsGap (front ++ back) := by
  intro c hc
  exact (List.mem_append.1 hc).elim (hfront c) (hback c)

theorem IsWord.isTrimmed {cs : List Char} (h : IsWord cs) : IsTrimmed cs :=
  isTrimmed_of_forall h.unbroken

/-! ## A word and what follows it -/

section Word

variable {word gap rest : List Char}

theorem takeWhile_word (hword : IsWord word) (hrest : Breaks rest) :
    (word ++ rest).takeWhile (! isBlank ·) = word := by
  rw [List.takeWhile_append_of_pos fun c hc => by simp [hword.unbroken c hc]]
  cases rest with
  | nil => simp
  | cons c rest => simp [hrest c rfl]

theorem dropWhile_word (hword : IsWord word) (hrest : Breaks rest) :
    (word ++ rest).dropWhile (! isBlank ·) = rest := by
  rw [List.dropWhile_append_of_pos fun c hc => by simp [hword.unbroken c hc]]
  cases rest with
  | nil => rfl
  | cons c rest => simp [hrest c rfl]

/-- What follows the first word of a text is the rest without the gap. -/
theorem afterWord_append (hword : IsWord word) (hgap : IsGap gap) (hne : gap ≠ [])
    (hrest : IsTrimmed rest) :
    afterWord (word ++ (gap ++ rest)) = rest := by
  have hstart : trimStart (word ++ (gap ++ rest)) = word ++ (gap ++ rest) := by
    refine trimStart_of_head? ?_
    rw [List.head?_append_of_ne_nil _ hword.ne_nil]
    exact hword.isTrimmed.1
  rw [afterWord, hstart, dropWhile_word hword (hgap.breaks hne rest), trimStart,
    List.dropWhile_append_of_pos hgap, ← trimStart, trimStart_of_head? hrest.1]

end Word

/-! ## All words -/

theorem words_nil : words [] = [] := rfl

theorem words_gap_append {gap : List Char} (hgap : IsGap gap) (rest : List Char) :
    words (gap ++ rest) = words rest := by
  induction gap with
  | nil => rfl
  | cons c gap ih =>
    rw [words, List.cons_append, cut_cons_pos (hgap c List.mem_cons_self),
      List.filter_cons_of_neg (by simp), ← words]
    exact ih fun c hc => hgap c (List.mem_cons_of_mem _ hc)

theorem cut_word {word rest : List Char} (hword : ∀ c ∈ word, isBlank c = false)
    (hrest : Breaks rest) :
    ∃ pieces, cut isBlank rest = [] :: pieces ∧ cut isBlank (word ++ rest) = word :: pieces := by
  have hstart : ∃ pieces, cut isBlank rest = [] :: pieces := by
    cases rest with
    | nil => exact ⟨[], rfl⟩
    | cons c rest => exact ⟨_, cut_cons_pos (hrest c rfl) rest⟩
  obtain ⟨pieces, hpieces⟩ := hstart
  refine ⟨pieces, hpieces, ?_⟩
  induction word with
  | nil => exact hpieces
  | cons c word ih =>
    rw [List.forall_mem_cons] at hword
    rw [List.cons_append, cut, List.foldr_cons, ← cut, ih hword.2, if_neg (by simp [hword.1])]

/-- The first word of a text is a word of it, and the other words are those of the rest. -/
theorem words_word_append {word rest : List Char} (hword : IsWord word) (hrest : Breaks rest) :
    words (word ++ rest) = word :: words rest := by
  obtain ⟨pieces, hpieces, hcut⟩ := cut_word hword.unbroken hrest
  rw [words, words, hcut, hpieces, List.filter_cons_of_pos (by simp [hword.ne_nil]),
    List.filter_cons_of_neg (by simp)]

theorem words_word {word : List Char} (hword : IsWord word) : words word = [word] := by
  simpa [words_nil] using words_word_append hword breaks_nil

/-- A trimmed text that is not empty begins with a word. -/
theorem exists_word {cs : List Char} (hne : cs ≠ []) (htrimmed : IsTrimmed cs) :
    ∃ word rest, IsWord word ∧ Breaks rest ∧ cs = word ++ rest := by
  refine ⟨cs.takeWhile (! isBlank ·), cs.dropWhile (! isBlank ·), ⟨?_, ?_⟩, ?_,
    List.takeWhile_append_dropWhile.symm⟩
  · cases cs with
    | nil => exact absurd rfl hne
    | cons c cs => simp [htrimmed.1 c rfl]
  · intro c hc
    simpa using List.mem_takeWhile_imp hc
  · intro c hc
    have hnot := List.head?_dropWhile_not (! isBlank ·) cs
    rw [Option.mem_def.1 hc] at hnot
    simpa using hnot

theorem words_ne_nil {cs : List Char} (hne : cs ≠ []) (htrimmed : IsTrimmed cs) :
    words cs ≠ [] := by
  obtain ⟨word, rest, hword, hrest, rfl⟩ := exists_word hne htrimmed
  rw [words_word_append hword hrest]
  exact List.cons_ne_nil _ _

/-! ## Trimming in the middle of blanks -/

/-- A text is what trimming leaves of it, with blanks around it. -/
theorem exists_trim (cs : List Char) :
    ∃ front back, IsGap front ∧ IsGap back ∧ cs = front ++ (trim cs ++ back) := by
  refine ⟨cs.takeWhile isBlank, ((trimStart cs).reverse.takeWhile isBlank).reverse, ?_, ?_, ?_⟩
  · exact fun c hc => List.mem_takeWhile_imp hc
  · intro c hc
    exact List.mem_takeWhile_imp (List.mem_reverse.1 hc)
  · rw [trim, trimEnd, ← List.reverse_append, List.takeWhile_append_dropWhile,
      List.reverse_reverse, trimStart, List.takeWhile_append_dropWhile]

/-- Blanks around a trimmed text are all that trimming takes. -/
theorem trim_gaps {front back cs : List Char} (hfront : IsGap front) (hback : IsGap back)
    (htrimmed : IsTrimmed cs) :
    trim (front ++ (cs ++ back)) = cs := by
  rw [trim_blanks_append hfront, trim_append_blanks hback, trim_of_isTrimmed htrimmed]

theorem trim_ne_nil {cs : List Char} {c : Char} (hc : c ∈ cs) (hblank : isBlank c = false) :
    trim cs ≠ [] := by
  intro hnil
  obtain ⟨front, back, hfront, hback, heq⟩ := exists_trim cs
  rw [hnil, List.nil_append] at heq
  rw [heq] at hc
  have := (hfront.append hback) c hc
  rw [hblank] at this
  cases this

end Colloquy.Chars
