import VisualNovel.Error
import VisualNovel.Script.Command

/-!
# The menu on offer

The options last offered, whether they can still be chosen from, and which of
them the pointer is on and which was picked. A pick survives deactivation and is
delivered once, by `poll`.
-/

namespace VisualNovel

structure Offer where
  choices : List Choice := []
  active : Bool := false
  hovered : Option Nat := none
  selected : Option Nat := none
  deriving DecidableEq, Repr, Inhabited

namespace Offer

/-- A fresh offer; an empty one is never active. -/
def ofChoices (choices : List Choice) : Offer :=
  { choices, active := !choices.isEmpty }

def activate (offer : Offer) : Offer :=
  { offer with active := !offer.choices.isEmpty }

def deactivate (offer : Offer) : Offer :=
  { offer with active := false, hovered := none }

def unhover (offer : Offer) : Offer :=
  { offer with hovered := none }

def hover (offer : Offer) (index : Nat) : Except RuntimeError Offer :=
  if index < offer.choices.length then .ok { offer with hovered := some index }
  else .error (.invalidChoiceIndex index offer.choices.length)

def select (offer : Offer) (index : Nat) : Except RuntimeError Offer :=
  if index < offer.choices.length then
    .ok { offer with hovered := some index, selected := some index }
  else .error (.invalidChoiceIndex index offer.choices.length)

def hasSelection (offer : Offer) : Bool :=
  offer.active && offer.selected.isSome

/-- Delivers the pick of an active offer: the label it leads to, and the offer
closed for further picks. -/
def poll (offer : Offer) : Option String × Offer :=
  if offer.active then
    match offer.selected with
    | none => (none, offer)
    | some index =>
      match offer.choices[index]? with
      | none => (none, { offer with selected := none })
      | some choice => (some choice.target, { offer with selected := none }.deactivate)
  else (none, offer)

end Offer

end VisualNovel
