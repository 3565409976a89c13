import Mathlib.Data.List.Chain
import VisualNovel.Proofs.Text.Words
import VisualNovel.Stage.Wrap

/-!
# How text is wrapped

Wrapped lines are groups of words, divided as a reader would divide them who never begins a
line as long as there is room (`Wrap.greedy`). That is a division into lines that fit, and no
such division has fewer lines (`Wrap.lines_greedy`): wherever another one breaks, a line of
the greedy division ends there or later.
-/

namespace VisualNovel.Wrap

/-- The words of a text: what stands between its spaces, where anything does. -/
def wordsOf (text : String) : List (List Char) :=
  (text.toList.splitOn ' ').filter (· ≠ [])

/-- A line of words, a space between each two. -/
def joined (group : List (List Char)) : List Char :=
  [' '].intercalate group

/-- The words in order, on lines that fit. A word alone on its line may be of any length. -/
structure Division (columns : Nat) (words : List (List Char))
    (groups : List (List (List Char))) : Prop where
  flatten_eq : groups.flatten = words
  nonempty : ∀ group ∈ groups, group ≠ []
  fits : ∀ group ∈ groups, 2 ≤ group.length → (joined group).length ≤ columns

/-- The first word of the next line had no room on this one. -/
def NoRoom (columns : Nat) (group next : List (List Char)) : Prop :=
  ∀ word, next.head? = some word → columns < (joined (group ++ [word])).length

-- ---------------------------------------------------------------------------
-- Joining
-- ---------------------------------------------------------------------------

theorem joined_singleton (word : List Char) : joined [word] = word :=
  List.intercalate_singleton

theorem joined_append (hleft : left ≠ []) (hright : right ≠ []) :
    joined (left ++ right) = joined left ++ ' ' :: joined right := by
  induction left with
  | nil => exact absurd rfl hleft
  | cons word left ih =>
    cases left with
    | nil =>
      obtain ⟨next, right, rfl⟩ := List.exists_cons_of_ne_nil hright
      simp [joined, List.intercalate_cons_cons]
    | cons next left =>
      have hrest := ih (List.cons_ne_nil next left)
      simp only [joined, List.cons_append, List.intercalate_cons_cons, List.append_assoc] at hrest ⊢
      rw [hrest]

theorem joined_snoc (h : group ≠ []) (word : List Char) :
    joined (group ++ [word]) = joined group ++ ' ' :: word := by
  rw [joined_append h (List.cons_ne_nil word []), joined_singleton]

/-- A line is no longer than one that has more words on it. -/
theorem length_joined_le (h : group ≠ []) (left right : List (List Char)) :
    (joined group).length ≤ (joined (left ++ (group ++ right))).length := by
  have hbehind : (joined group).length ≤ (joined (group ++ right)).length := by
    by_cases hright : right = []
    · rw [hright, List.append_nil]
    · rw [joined_append h hright, List.length_append]
      exact Nat.le_add_right ..
  by_cases hleft : left = []
  · rwa [hleft, List.nil_append]
  · rw [joined_append hleft (by simp [h]), List.length_append, List.length_cons]
    omega

-- ---------------------------------------------------------------------------
-- Dividing greedily
-- ---------------------------------------------------------------------------

/-- The lines of `group` and the words behind it, where `group` is the line being filled. -/
def greedyFrom (columns : Nat) (group : List (List Char)) :
    List (List Char) → List (List (List Char))
  | [] => [group]
  | word :: words =>
    if (joined (group ++ [word])).length ≤ columns then greedyFrom columns (group ++ [word]) words
    else group :: greedyFrom columns [word] words

def greedy (columns : Nat) : List (List Char) → List (List (List Char))
  | [] => []
  | word :: words => greedyFrom columns [word] words

section
variable {columns : Nat}

theorem fill_joined (h : group ≠ []) (words : List (List Char)) :
    fill columns (joined group) words = (greedyFrom columns group words).map joined := by
  induction words generalizing group with
  | nil => rfl
  | cons word words ih =>
    have hword := ih (List.cons_ne_nil word [])
    rw [joined_singleton] at hword
    have hwidth : (joined (group ++ [word])).length =
        (joined group).length + 1 + word.length := by
      rw [joined_snoc h, List.length_append, List.length_cons]
      omega
    rw [fill, greedyFrom, hwidth, hword, ← joined_snoc h, ih (by simp)]
    split <;> rfl

theorem wrap_eq (words : List (List Char)) :
    wrap columns words = (greedy columns words).map joined := by
  cases words with
  | nil => rfl
  | cons word words =>
    have hfill : fill columns (joined [word]) words = _ :=
      fill_joined (List.cons_ne_nil word []) words
    rwa [joined_singleton] at hfill

theorem Division.nil : Division columns [] [] :=
  ⟨rfl, nofun, nofun⟩

theorem Division.cons (hne : group ≠ [])
    (hfits : 2 ≤ group.length → (joined group).length ≤ columns)
    (h : Division columns words groups) : Division columns (group ++ words) (group :: groups) :=
  ⟨by rw [List.flatten_cons, h.flatten_eq], List.forall_mem_cons.mpr ⟨hne, h.nonempty⟩,
    List.forall_mem_cons.mpr ⟨hfits, h.fits⟩⟩

theorem Division.tail (h : Division columns words (group :: groups)) :
    Division columns groups.flatten groups :=
  ⟨rfl, (List.forall_mem_cons.mp h.nonempty).2, (List.forall_mem_cons.mp h.fits).2⟩

theorem division_greedyFrom (hne : group ≠ [])
    (hfits : 2 ≤ group.length → (joined group).length ≤ columns) (words : List (List Char)) :
    Division columns (group ++ words) (greedyFrom columns group words) := by
  induction words generalizing group with
  | nil => exact Division.nil.cons hne hfits
  | cons word words ih =>
    unfold greedyFrom
    split
    next hroom =>
      rw [List.append_cons]
      exact ih (by simp) fun _ => hroom
    next => exact (ih (List.cons_ne_nil word []) (by simp)).cons hne hfits

theorem division_greedy (words : List (List Char)) :
    Division columns words (greedy columns words) := by
  cases words with
  | nil => exact .nil
  | cons word words => exact division_greedyFrom (List.cons_ne_nil word []) (by simp) words

/-- The line being filled becomes the first line, with more words or none. -/
theorem greedyFrom_eq_cons (columns : Nat) (group words : List (List Char)) :
    ∃ more rest, greedyFrom columns group words = (group ++ more) :: rest := by
  induction words generalizing group with
  | nil => exact ⟨[], [], by rw [List.append_nil]; rfl⟩
  | cons word words ih =>
    unfold greedyFrom
    split
    · obtain ⟨more, rest, heq⟩ := ih (group ++ [word])
      exact ⟨word :: more, rest, by rw [heq, List.append_assoc]; rfl⟩
    · exact ⟨[], _, by rw [List.append_nil]⟩

theorem chain_greedyFrom (group words : List (List Char)) :
    (greedyFrom columns group words).IsChain (NoRoom columns) := by
  induction words generalizing group with
  | nil => exact .singleton group
  | cons word words ih =>
    unfold greedyFrom
    split
    next => exact ih (group ++ [word])
    next hroom =>
      have hrest := ih [word]
      obtain ⟨more, rest, heq⟩ := greedyFrom_eq_cons columns [word] words
      rw [heq] at hrest ⊢
      refine .cons_cons ?_ hrest
      rintro _ ⟨⟩
      exact Nat.lt_of_not_le hroom

theorem chain_greedy (words : List (List Char)) :
    (greedy columns words).IsChain (NoRoom columns) := by
  cases words with
  | nil => exact .nil
  | cons word words => exact chain_greedyFrom [word] words

-- ---------------------------------------------------------------------------
-- No division is shorter
-- ---------------------------------------------------------------------------

/-- The other division may have words to place before those of the line being filled. Where no
more words fit on that line, they do not fit on the other's first line either, so the other
has a line less for the words that are left. -/
theorem length_greedyFrom_le (before : List (List Char)) (hne : group ≠ [])
    (h : Division columns (before ++ group ++ words) other) :
    (greedyFrom columns group words).length ≤ other.length := by
  induction words generalizing group before other with
  | nil =>
    cases other with
    | nil => simpa [hne] using h.flatten_eq
    | cons first rest => exact Nat.succ_le_succ (Nat.zero_le _)
  | cons word words ih =>
    unfold greedyFrom
    split
    next =>
      refine ih before (by simp) ?_
      simpa only [List.append_assoc, List.singleton_append] using h
    next hroom =>
      cases other with
      | nil => simpa [hne] using h.flatten_eq
      | cons first rest =>
        have hsplit : before ++ group ++ word :: words = first ++ rest.flatten :=
          h.flatten_eq.symm.trans List.flatten_cons
        obtain ⟨beyond, hfirst, hover⟩ | ⟨left, -, hleft⟩ := List.append_eq_append_iff.mp hsplit
        · cases beyond with
          | nil =>
            have htail : Division columns ([] ++ [word] ++ words) rest := by
              rw [List.nil_append, List.singleton_append, hover]
              exact h.tail
            exact Nat.succ_le_succ (ih [] (List.cons_ne_nil word []) htail)
          | cons next beyond =>
            -- The other's first line has the word that had no room on it.
            obtain ⟨rfl, -⟩ := List.cons.inj hover
            refine absurd ?_ hroom
            have hwide : first = before ++ (group ++ [word] ++ beyond) := by simp [hfirst]
            have htwo : 2 ≤ first.length := by
              have := List.length_pos_of_ne_nil hne
              simp only [hwide, List.length_append, List.length_singleton]
              omega
            exact Nat.le_trans (hwide ▸ length_joined_le (by simp) before beyond)
              (h.fits first List.mem_cons_self htwo)
        · have htail : Division columns (left ++ [word] ++ words) rest := by
            rw [← List.append_cons, ← hleft]
            exact h.tail
          exact Nat.succ_le_succ (ih left (List.cons_ne_nil word []) htail)

theorem length_greedy_le (h : Division columns words other) :
    (greedy columns words).length ≤ other.length := by
  cases words with
  | nil => exact Nat.zero_le _
  | cons word words => exact length_greedyFrom_le [] (List.cons_ne_nil word []) h

end

-- ---------------------------------------------------------------------------
-- The lines of a text
-- ---------------------------------------------------------------------------

theorem pieces_eq_wordsOf (text : String) :
    Text.pieces (· = ' ') text.toList = wordsOf text := by
  have heq : (fun c => decide (c = ' ')) = (· == ' ') := rfl
  rw [Text.pieces_eq_splitOnP, heq]
  rfl

theorem layout_eq (columns : Nat) (words : List (List Char)) :
    let speaker := words.head?.filter (·.getLast? = some ':')
    layout columns words =
      speaker.toList ++ wrap columns (words.drop speaker.toList.length) := by
  cases words with
  | nil => rfl
  | cons first rest =>
    by_cases hfirst : first.getLast? = some ':' <;>
      simp [layout, isSpeaker, hfirst, Option.filter_some]

/-- A first word that ends in a colon has the first line to itself. The other words are divided
greedily: the first word of a line had no room on the line before, and no other division into
lines that fit has fewer lines. -/
theorem lines_greedy (text : String) (columns : Nat) :
    let words := wordsOf text
    let speaker := words.head?.filter (·.getLast? = some ':')
    let spoken := words.drop speaker.toList.length
    ∃ groups, lines text columns = (speaker.toList ++ groups.map joined).map String.ofList ∧
      Division columns spoken groups ∧ groups.IsChain (NoRoom columns) ∧
      ∀ other, Division columns spoken other → groups.length ≤ other.length := by
  intro words speaker spoken
  refine ⟨greedy columns spoken, ?_, division_greedy spoken, chain_greedy spoken,
    fun _ => length_greedy_le⟩
  rw [← wrap_eq, ← layout_eq, lines, pieces_eq_wordsOf]

example : lines "Yuki: good morning to you" 10 = ["Yuki:", "good", "morning to", "you"] := by
  decide

end VisualNovel.Wrap
