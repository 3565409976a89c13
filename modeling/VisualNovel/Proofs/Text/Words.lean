import Mathlib.Data.List.TakeWhile
import VisualNovel.Proofs.Text.Trimming

/-!
# Words

What begins with a blank has its words behind those of the text before it (`words_append`),
and a text without blanks is one word (`IsWord.words_eq`). Words hold no blanks, so a word
is its own trimming (`trim_of_mem_words`).
-/

namespace VisualNovel.Text

/-- There is no blank in it. -/
def Unbroken (s : String) : Prop :=
  ∀ c ∈ s.toList, isBlank c = false

instance (s : String) : Decidable (Unbroken s) :=
  List.decidableBAll (isBlank · = false) s.toList

structure IsWord (s : String) : Prop where
  ne_empty : s ≠ ""
  unbroken : Unbroken s

/-- It is empty or begins with a blank, so it is set off from what stands before it. -/
def SetOff (s : String) : Prop :=
  ∀ c, s.toList.head? = some c → isBlank c = true

theorem piecesFrom_append (hc : sep c = true) (piece cs ds : List Char) :
    piecesFrom sep piece (cs ++ c :: ds) = piecesFrom sep piece cs ++ pieces sep ds := by
  induction cs generalizing piece with
  | nil => by_cases hpiece : piece.isEmpty <;> simp [piecesFrom, pieces, hc, hpiece]
  | cons d cs ih =>
    rw [List.cons_append]
    unfold piecesFrom
    rw [ih, ih]
    by_cases hd : sep d
    · by_cases hpiece : piece.isEmpty <;> simp [hd, hpiece]
    · simp [hd]

theorem piecesFrom_of_unbroken (h : ∀ c ∈ cs, sep c = false) (hne : piece.reverse ++ cs ≠ []) :
    piecesFrom sep piece cs = [piece.reverse ++ cs] := by
  induction cs generalizing piece with
  | nil => simpa [piecesFrom] using hne
  | cons c cs ih =>
    obtain ⟨hc, hcs⟩ := List.forall_mem_cons.mp h
    have hpiece : (c :: piece).reverse ++ cs = piece.reverse ++ c :: cs := by simp
    rw [piecesFrom, hc, if_neg Bool.false_ne_true, ih hcs (hpiece ▸ hne), hpiece]

/-- Pieces are what a split at every separator leaves, without the empty ones. -/
theorem pieces_eq_splitOnP (sep : Char → Bool) (cs : List Char) :
    pieces sep cs = (cs.splitOnP sep).filter (· ≠ []) := by
  suffices ∀ piece,
      piecesFrom sep piece cs = (List.splitOnPPrepend sep cs piece).filter (· ≠ []) from this []
  intro piece
  induction cs generalizing piece with
  | nil => cases piece <;> simp [piecesFrom, List.splitOnPPrepend]
  | cons c cs ih =>
    unfold piecesFrom List.splitOnPPrepend
    rw [ih, ih]
    by_cases hc : sep c <;> cases piece <;> simp [hc]

theorem words_blank_append (s : String) : words (" " ++ s) = words s := by
  rw [words, String.toList_append]
  rfl

theorem words_append (h : SetOff right) (left : String) :
    words (left ++ right) = words left ++ words right := by
  cases hright : right.toList with
  | nil => simp [words, hright, pieces, piecesFrom]
  | cons c ds =>
    have hc : isBlank c = true := h c (by rw [hright, List.head?_cons])
    have hblank : pieces isBlank (c :: ds) = pieces isBlank ds := by
      simp [pieces, piecesFrom, hc]
    rw [words, String.toList_append, hright, pieces, piecesFrom_append hc, List.map_append,
      ← hblank, ← hright]
    rfl

theorem words_append_blank (left right : String) :
    words (left ++ (" " ++ right)) = words left ++ words right := by
  have hright : SetOff (" " ++ right) := fun c hc => by
    rw [String.toList_append, List.head?_append] at hc
    cases hc
    rfl
  rw [words_append hright, words_blank_append]

theorem IsWord.words_eq (h : IsWord word) : words word = [word] := by
  have hne : word.toList ≠ [] := fun hnil => h.ne_empty (String.toList_eq_nil_iff.mp hnil)
  have hpieces : piecesFrom isBlank [] word.toList = [[].reverse ++ word.toList] :=
    piecesFrom_of_unbroken h.unbroken hne
  rw [words, pieces, hpieces, List.reverse_nil, List.nil_append, List.map_singleton,
    String.ofList_toList]

theorem not_sep_of_mem_piecesFrom (hpiece : ∀ c ∈ piece, sep c = false)
    (h : found ∈ piecesFrom sep piece cs) : ∀ c ∈ found, sep c = false := by
  induction cs generalizing piece with
  | nil =>
    unfold piecesFrom at h
    split at h
    · simp at h
    · simpa [List.mem_singleton.mp h] using hpiece
  | cons c cs ih =>
    unfold piecesFrom at h
    split at h
    · split at h
      · exact ih (by simp) h
      · rcases List.mem_cons.mp h with rfl | h
        · simpa using hpiece
        · exact ih (by simp) h
    · rename_i hc
      exact ih (List.forall_mem_cons.mpr ⟨Bool.eq_false_iff.mpr hc, hpiece⟩) h

theorem unbroken_of_mem_words (h : word ∈ words s) : Unbroken word := by
  obtain ⟨piece, hpiece, rfl⟩ := List.mem_map.mp h
  simpa [Unbroken] using not_sep_of_mem_piecesFrom (by simp) hpiece

theorem Unbroken.bare (h : Unbroken s) : Bare s.toList :=
  ⟨fun c hc => h c (List.mem_of_head? hc), fun c hc => h c (List.mem_of_getLast? hc)⟩

theorem trim_of_mem_words (h : word ∈ words s) : trim word = word := by
  rw [trim, (unbroken_of_mem_words h).bare.trimList_eq, String.ofList_toList]

/-- Everything up to the first blank, and the rest. -/
theorem exists_eq_append (s : String) :
    ∃ word right, s = word ++ right ∧ Unbroken word ∧ SetOff right := by
  let letter := fun c => !isBlank c
  refine ⟨String.ofList (s.toList.takeWhile letter), String.ofList (s.toList.dropWhile letter),
    ?_, fun c hc => ?_, fun c hc => ?_⟩
  · rw [← String.ofList_append, List.takeWhile_append_dropWhile, String.ofList_toList]
  · rw [String.toList_ofList] at hc
    simpa [letter] using List.mem_takeWhile_imp hc
  · have hnot := List.head?_dropWhile_not letter s.toList
    rw [String.toList_ofList] at hc
    simpa [letter, hc] using hnot

/-- A text that begins with a word is that word and nothing else if it has no blanks. -/
theorem exists_words_eq_cons (hne : s ≠ "") (htrim : trim s = s) :
    ∃ word rest, words s = word :: rest ∧ (word = s ↔ Unbroken s) := by
  obtain ⟨word, right, hs, hunbroken, hright⟩ := exists_eq_append s
  have hbare : Bare s.toList := by
    rw [← htrim, trim, String.toList_ofList]
    exact bare_trimList _
  have hword : IsWord word := by
    refine ⟨fun hempty => ?_, hunbroken⟩
    rw [hempty, String.empty_append] at hs
    cases hhead : s.toList.head? with
    | none => exact hne (String.toList_eq_nil_iff.mp (List.head?_eq_none_iff.mp hhead))
    | some c => exact absurd (hright c (hs ▸ hhead)) (by simp [hbare.head c hhead])
  refine ⟨word, words right, ?_, fun hsame => hsame ▸ hunbroken, fun hwhole => ?_⟩
  · rw [hs, words_append hright, hword.words_eq, List.singleton_append]
  · cases hhead : right.toList.head? with
    | none =>
      have hempty := String.toList_eq_nil_iff.mp (List.head?_eq_none_iff.mp hhead)
      rw [hs, hempty, String.append_empty]
    | some c =>
      have hmem : c ∈ s.toList := by
        rw [hs, String.toList_append]
        exact List.mem_append_right _ (List.mem_of_head? hhead)
      exact absurd (hright c hhead) (by simp [hwhole c hmem])

end VisualNovel.Text
