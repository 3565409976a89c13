import Mathlib.Data.List.Basic
import VisualNovel.Proofs.Story.Turn

/-!
# Delivering a pick

An offer may be set, hidden, shown, pointed at, picked from and asked for its pick in any
order. `Offer.Pending` finds in what has been asked and replied the pick that is still to be
delivered; every call leaves the offer with just that pick selected (`Offer.Minds.call`). So
an offer delivers a pick once, and only while it is active (`Offer.pick_delivered_once`).
-/

namespace VisualNovel

/-- What can be asked of an offer, besides reading it. -/
inductive OfferCall where
  | setChoices (choices : List Choice)
  | clear
  | activate
  | deactivate
  | unhover
  | hover (index : Nat)
  | select (index : Nat)
  | poll
  deriving DecidableEq, Repr

inductive OfferReply where
  | done
  | refused (error : RuntimeError)
  | polled (label : Option String)
  deriving DecidableEq, Repr

structure OfferExchange where
  call : OfferCall
  reply : OfferReply
  deriving DecidableEq, Repr

/-- Leaves nothing of an earlier pick: the options have been replaced, the pick has been
delivered, or there is another one. -/
inductive OfferExchange.Supersedes : OfferExchange → Prop
  | setChoices : Supersedes ⟨.setChoices choices, .done⟩
  | clear : Supersedes ⟨.clear, .done⟩
  | delivered : Supersedes ⟨.poll, .polled (some label)⟩
  | picked : Supersedes ⟨.select index, .done⟩

namespace Offer

/-- A call that fails leaves the offer as it is. -/
def attempt (offer : Offer) : Except RuntimeError Offer → Offer × OfferReply
  | .ok next => (next, .done)
  | .error error => (offer, .refused error)

/-- The offer after a call, and what it replies. -/
def call (offer : Offer) : OfferCall → Offer × OfferReply
  | .setChoices choices => (.ofChoices choices, .done)
  | .clear => (.ofChoices [], .done)
  | .activate => (offer.activate, .done)
  | .deactivate => (offer.deactivate, .done)
  | .unhover => (offer.unhover, .done)
  | .hover index => offer.attempt (offer.hover index)
  | .select index => offer.attempt (offer.select index)
  | .poll => (offer.poll.2, .polled offer.poll.1)

/-- The offer after the calls, made one after another. -/
def after (offer : Offer) (calls : List OfferCall) : Offer :=
  calls.foldl (fun offer call => (offer.call call).1) offer

def exchanges (offer : Offer) : List OfferCall → List OfferExchange
  | [] => []
  | call :: calls => ⟨call, (offer.call call).2⟩ :: (offer.call call).1.exchanges calls

-- ---------------------------------------------------------------------------
-- The pick to be delivered
-- ---------------------------------------------------------------------------

/-- The last pick that was taken, if the options are still those it was made from and it has
not been delivered. -/
def Pending (past : List OfferExchange) (index : Nat) : Prop :=
  ∃ earlier later, past = earlier ++ ⟨.select index, .done⟩ :: later ∧
    ∀ exchange ∈ later, ¬exchange.Supersedes

section
variable {past : List OfferExchange} {exchange : OfferExchange}

theorem not_pending_nil : ¬Pending [] index := by
  rintro ⟨earlier, later, hpast, -⟩
  simp at hpast

theorem pending_snoc :
    Pending (past ++ [exchange]) index ↔
      exchange = ⟨.select index, .done⟩ ∨ ¬exchange.Supersedes ∧ Pending past index := by
  constructor
  · rintro ⟨earlier, later, hpast, hlater⟩
    -- The exchange is the pick itself, or the last one after it.
    obtain rfl | ⟨later, last, rfl⟩ := List.eq_nil_or_concat' later
    · exact .inl (List.singleton_inj.mp (List.append_inj' hpast rfl).2)
    · rw [← List.cons_append, ← List.append_assoc] at hpast
      obtain ⟨rfl, hlast⟩ := List.append_inj' hpast rfl
      cases hlast
      have hkept := List.forall_mem_append.mp hlater
      exact .inr ⟨hkept.2 _ List.mem_cons_self, earlier, later, rfl, hkept.1⟩
  · rintro (rfl | ⟨hexchange, earlier, later, rfl, hlater⟩)
    · exact ⟨past, [], rfl, nofun⟩
    · refine ⟨earlier, later ++ [exchange], by simp, List.forall_mem_append.mpr ⟨hlater, ?_⟩⟩
      simpa using hexchange

theorem pending_of_kept (h : ¬exchange.Supersedes) :
    Pending (past ++ [exchange]) index ↔ Pending past index := by
  rw [pending_snoc, or_iff_right, and_iff_right h]
  rintro rfl
  exact h .picked

theorem pending_of_picked :
    Pending (past ++ [⟨.select picked, .done⟩]) index ↔ picked = index := by
  rw [pending_snoc, or_iff_left (fun h => h.1 .picked)]
  simp

/-- After an exchange that supersedes, there is a pick only if it is that one. -/
theorem not_pending_of_superseded (h : exchange.Supersedes)
    (hcall : exchange.call ≠ .select index) : ¬Pending (past ++ [exchange]) index := by
  rw [pending_snoc]
  rintro (rfl | ⟨hnot, -⟩)
  · exact hcall rfl
  · exact hnot h

end

-- ---------------------------------------------------------------------------
-- Calls
-- ---------------------------------------------------------------------------

/-- The offer minds what is left of the past: the pick that is pending is the one selected,
and what is pointed at or selected exists. -/
structure Minds (past : List OfferExchange) (offer : Offer) : Prop where
  nonempty : offer.active = true → offer.choices ≠ []
  hovered_lt : ∀ index, offer.hovered = some index → index < offer.choices.length
  selected_lt : ∀ index, offer.selected = some index → index < offer.choices.length
  selected_iff : ∀ index, offer.selected = some index ↔ Pending past index

namespace Minds

theorem nil : Minds [] {} :=
  ⟨nofun, nofun, nofun, fun _ => iff_of_false nofun not_pending_nil⟩

section
variable {past : List OfferExchange} {offer : Offer}

/-- Asked for the pick, the offer has none to give, or gives the one selected. -/
theorem poll_eq (h : Minds past offer) :
    (offer.active = true → offer.selected = none) ∧ offer.call .poll = (offer, .polled none) ∨
      ∃ index choice, offer.active = true ∧ offer.selected = some index ∧
        offer.choices[index]? = some choice ∧
        offer.call .poll =
          ({ offer with selected := none }.deactivate, .polled (some choice.target)) := by
  cases ha : offer.active with
  | false => exact .inl ⟨nofun, by simp [Offer.call, Offer.poll, ha]⟩
  | true =>
    cases hs : offer.selected with
    | none => exact .inl ⟨fun _ => rfl, by simp [Offer.call, Offer.poll, ha, hs]⟩
    | some index =>
      have hc := List.getElem?_eq_getElem (h.selected_lt index hs)
      exact .inr ⟨index, _, rfl, rfl, hc, by simp [Offer.call, Offer.poll, ha, hs, hc]⟩

/-- An exchange that supersedes nothing, and leaves options and pick alone. -/
theorem kept (h : Minds past offer) (hexchange : ¬exchange.Supersedes)
    (hchoices : next.choices = offer.choices) (hselected : next.selected = offer.selected)
    (hactive : next.active = true → offer.choices ≠ [])
    (hhovered : ∀ index, next.hovered = some index → index < offer.choices.length) :
    Minds (past ++ [exchange]) next := by
  refine ⟨hchoices ▸ hactive, hchoices ▸ hhovered, ?_, fun index => ?_⟩
  · rw [hchoices, hselected]
    exact h.selected_lt
  · rw [hselected, pending_of_kept hexchange]
    exact h.selected_iff index

theorem ofChoices (hexchange : exchange.Supersedes)
    (hcall : ∀ index, exchange.call ≠ .select index) (choices : List Choice) :
    Minds (past ++ [exchange]) (.ofChoices choices) :=
  ⟨fun ha => by simpa [Offer.ofChoices] using ha, nofun, nofun,
    fun index => iff_of_false nofun (not_pending_of_superseded hexchange (hcall index))⟩

theorem select (h : Minds past offer) (index : Nat) :
    Minds (past ++ [⟨.select index, (offer.call (.select index)).2⟩])
      (offer.call (.select index)).1 := by
  rw [Offer.call]
  cases hc : offer.choices[index]? with
  | none =>
    rw [select_of_none hc]
    exact h.kept nofun rfl rfl h.nonempty h.hovered_lt
  | some choice =>
    rw [select_of_some hc]
    have hlt := (List.getElem?_eq_some_iff.mp hc).1
    refine ⟨h.nonempty, ?_, ?_, fun other => ?_⟩
    · rintro _ ⟨⟩
      exact hlt
    · rintro _ ⟨⟩
      exact hlt
    · exact Option.some_inj.trans pending_of_picked.symm

theorem hover (h : Minds past offer) (index : Nat) :
    Minds (past ++ [⟨.hover index, (offer.call (.hover index)).2⟩])
      (offer.call (.hover index)).1 := by
  rw [Offer.call]
  cases hc : offer.choices[index]? with
  | none =>
    rw [hover_of_none hc]
    exact h.kept nofun rfl rfl h.nonempty h.hovered_lt
  | some choice =>
    rw [hover_of_some hc]
    refine h.kept nofun rfl rfl h.nonempty ?_
    rintro _ ⟨⟩
    exact (List.getElem?_eq_some_iff.mp hc).1

theorem poll (h : Minds past offer) :
    Minds (past ++ [⟨.poll, (offer.call .poll).2⟩]) (offer.call .poll).1 := by
  obtain ⟨-, heq⟩ | ⟨index, choice, -, -, -, heq⟩ := h.poll_eq <;> rw [heq]
  · exact h.kept nofun rfl rfl h.nonempty h.hovered_lt
  · exact ⟨nofun, nofun, nofun,
      fun _ => iff_of_false nofun (not_pending_of_superseded .delivered nofun)⟩

theorem call (h : Minds past offer) (call : OfferCall) :
    Minds (past ++ [⟨call, (offer.call call).2⟩]) (offer.call call).1 := by
  cases call with
  | setChoices choices => exact .ofChoices .setChoices nofun choices
  | clear => exact .ofChoices .clear nofun []
  | activate =>
    refine h.kept nofun rfl rfl (fun ha => ?_) h.hovered_lt
    simpa [Offer.call, activate] using ha
  | deactivate => exact h.kept nofun rfl rfl nofun nofun
  | unhover => exact h.kept nofun rfl rfl h.nonempty nofun
  | hover index => exact h.hover index
  | select index => exact h.select index
  | poll => exact h.poll

theorem after (h : Minds past offer) (calls : List OfferCall) :
    Minds (past ++ offer.exchanges calls) (offer.after calls) := by
  induction calls generalizing past offer with
  | nil => exact (List.append_nil past).symm ▸ h
  | cons call calls ih =>
    rw [exchanges, List.append_cons]
    exact ih (h.call call)

/-- What an offer replies when asked for the pick. -/
theorem polled_iff (h : Minds past offer) :
    (offer.call .poll).2 = .polled (some label) ↔
      offer.active = true ∧ ∃ index choice, Pending past index ∧
        offer.choices[index]? = some choice ∧ choice.target = label := by
  obtain ⟨hidle, heq⟩ | ⟨index, choice, ha, hs, hc, heq⟩ := h.poll_eq <;> rw [heq]
  · refine iff_of_false nofun ?_
    rintro ⟨ha, index, -, hpending, -⟩
    exact nomatch (hidle ha).symm.trans ((h.selected_iff index).mpr hpending)
  · constructor
    · rintro ⟨⟩
      exact ⟨ha, index, choice, (h.selected_iff index).mp hs, hc, rfl⟩
    · rintro ⟨-, other, picked, hpending, hpicked, rfl⟩
      cases hs.symm.trans ((h.selected_iff other).mpr hpending)
      cases hc.symm.trans hpicked
      rfl

theorem pending_lt (h : Minds past offer) (hpending : Pending past index) :
    index < offer.choices.length :=
  h.selected_lt index ((h.selected_iff index).mpr hpending)

/-- A pick that is delivered leaves the offer inactive, with its options. -/
theorem polled (h : Minds past offer) (hpoll : (offer.call .poll).2 = .polled (some label)) :
    (offer.call .poll).1.active = false ∧ (offer.call .poll).1.choices = offer.choices := by
  obtain ⟨-, heq⟩ | ⟨index, choice, -, -, -, heq⟩ := h.poll_eq <;> rw [heq] at hpoll ⊢
  · cases hpoll
  · exact ⟨rfl, rfl⟩

end

end Minds

theorem attempt_refused (offer : Offer) (attempted : Except RuntimeError Offer) :
    (offer.attempt attempted).2 = .refused error ↔ attempted = .error error := by
  cases attempted <;> simp [attempt]

/-- Pointing at or picking what is not there is all that is refused. -/
theorem call_refused_iff (offer : Offer) (call : OfferCall) (error : RuntimeError) :
    (offer.call call).2 = .refused error ↔
      ∃ index, (call = .hover index ∨ call = .select index) ∧ offer.choices.length ≤ index ∧
        error = .invalidChoiceIndex index offer.choices.length := by
  cases call with
  | hover index | select index =>
    rw [Offer.call, attempt_refused]
    by_cases hlt : index < offer.choices.length
    · simp [Offer.hover, Offer.select, hlt, Nat.not_le.mpr hlt]
    · simp [Offer.hover, Offer.select, hlt, Nat.le_of_not_lt hlt, eq_comm]
  | setChoices _ | clear | activate | deactivate | unhover | poll => simp [Offer.call]

theorem call_of_refused {offer : Offer} {call : OfferCall}
    (h : (offer.call call).2 = .refused error) : (offer.call call).1 = offer := by
  cases call with
  | hover index | select index =>
    rw [Offer.call, attempt_refused] at h
    rw [Offer.call, h]
    rfl
  | setChoices _ | clear | activate | deactivate | unhover | poll => cases h

/-- Whatever has been asked of a new offer, it is active only with options, and what is pointed
at or picked is one of them; so is a pick that is pending. Asked for the pick, it delivers a
label just when it is active and a pick is pending, and that is the label the pick leads to;
it is then inactive and has its options still. Pointing at or picking what is not there is
refused, and all that is refused changes nothing. -/
theorem pick_delivered_once (calls : List OfferCall) :
    let offer := ({} : Offer).after calls
    let past := ({} : Offer).exchanges calls
    (offer.active = true → offer.choices ≠ []) ∧
      (∀ index, offer.hovered = some index → index < offer.choices.length) ∧
      (∀ index, offer.selected = some index → index < offer.choices.length) ∧
      (∀ index, Pending past index → index < offer.choices.length) ∧
      (∀ label, (offer.call .poll).2 = .polled (some label) ↔
        offer.active = true ∧ ∃ index choice, Pending past index ∧
          offer.choices[index]? = some choice ∧ choice.target = label) ∧
      (∀ label, (offer.call .poll).2 = .polled (some label) →
        (offer.call .poll).1.active = false ∧ (offer.call .poll).1.choices = offer.choices) ∧
      (∀ call error, (offer.call call).2 = .refused error ↔
        ∃ index, (call = .hover index ∨ call = .select index) ∧ offer.choices.length ≤ index ∧
          error = .invalidChoiceIndex index offer.choices.length) ∧
      ∀ call error, (offer.call call).2 = .refused error → (offer.call call).1 = offer := by
  intro offer past
  have hminds : Minds past offer := Minds.nil.after calls
  exact ⟨hminds.nonempty, hminds.hovered_lt, hminds.selected_lt, fun _ => hminds.pending_lt,
    fun _ => hminds.polled_iff, fun _ => hminds.polled, offer.call_refused_iff,
    fun _ _ => call_of_refused⟩

end Offer

end VisualNovel
