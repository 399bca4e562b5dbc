/-!
# Machines that read texts

A machine takes a text character by character, on two layers. The mode says what part of a token
comes next; a character that completes a token moves the machine from one place to the next. What a
machine makes of a text put together from parts is found part by part, so a text that is written by
recursion is read by the same recursion.
-/

namespace JPlusPlus.Text

/-- A machine that reads. -/
structure Machine (Mode Lexeme Place : Type) where
  /-- The mode after a character, with the token that the character completes. -/
  mode : Mode → Char → Option (Mode × Option Lexeme)
  /-- The place after a token. -/
  place : Place → Lexeme → Option Place

namespace Machine

variable {Mode Lexeme Place : Type} {machine : Machine Mode Lexeme Place}

/-- Takes a character. -/
def next (machine : Machine Mode Lexeme Place) (state : Mode × Place) (c : Char) :
    Option (Mode × Place) := do
  let (mode, lexeme?) ← machine.mode state.1 c
  match lexeme? with
  | none => return (mode, state.2)
  | some lexeme => return (mode, ← machine.place state.2 lexeme)

/-- The machine gets from one state to another over the characters. -/
def Reads (machine : Machine Mode Lexeme Place) (first : Mode × Place) (cs : List Char)
    (last : Mode × Place) : Prop :=
  cs.foldlM machine.next first = some last

theorem Reads.refl (state : Mode × Place) : machine.Reads state [] state := rfl

theorem Reads.append {first middle last : Mode × Place} {cs ds : List Char}
    (h : machine.Reads first cs middle) (h' : machine.Reads middle ds last) :
    machine.Reads first (cs ++ ds) last := by
  rw [Reads, List.foldlM_append, h]
  exact h'

theorem Reads.append_append {first middle last : Mode × Place} {cs ds es : List Char}
    (h : machine.Reads first (cs ++ ds) middle) (h' : machine.Reads middle es last) :
    machine.Reads first (cs ++ (ds ++ es)) last := by
  rw [← List.append_assoc]
  exact h.append h'

theorem Reads.unique {first last last' : Mode × Place} {cs : List Char}
    (h : machine.Reads first cs last) (h' : machine.Reads first cs last') : last = last' :=
  Option.some.inj (h.symm.trans h')

/-- A character that completes no token leaves the place. -/
theorem Reads.skip {mode mode' : Mode} {place : Place} {c : Char} {cs : List Char}
    {last : Mode × Place} (hmode : machine.mode mode c = some (mode', none))
    (h : machine.Reads (mode', place) cs last) : machine.Reads (mode, place) (c :: cs) last := by
  have hnext : machine.next (mode, place) c = some (mode', place) := by
    simp only [next, hmode]
    rfl
  rw [Reads, List.foldlM_cons, hnext]
  exact h

/-- A character that completes a token moves the machine to the next place. -/
theorem Reads.move {mode mode' : Mode} {place place' : Place} {lexeme : Lexeme} {c : Char}
    {cs : List Char} {last : Mode × Place}
    (hmode : machine.mode mode c = some (mode', some lexeme))
    (hplace : machine.place place lexeme = some place')
    (h : machine.Reads (mode', place') cs last) : machine.Reads (mode, place) (c :: cs) last := by
  have hnext : machine.next (mode, place) c = some (mode', place') := by
    simp only [next, hmode, bind, Option.bind, hplace]
    rfl
  rw [Reads, List.foldlM_cons, hnext]
  exact h

/-- Characters that complete no token and leave the mode leave the state. -/
theorem reads_skipAll {mode : Mode} {cs : List Char}
    (h : ∀ c ∈ cs, machine.mode mode c = some (mode, none)) (place : Place) :
    machine.Reads (mode, place) cs (mode, place) := by
  induction cs with
  | nil => exact .refl _
  | cons c cs ih =>
    obtain ⟨hc, hcs⟩ := List.forall_mem_cons.mp h
    exact .skip hc (ih hcs)

end Machine

/-! ## Hexadecimal digits -/

/-- The value of a hexadecimal digit in either case. -/
def hexValue? (c : Char) : Option Nat :=
  if '0' ≤ c ∧ c ≤ '9' then some (c.toNat - '0'.toNat)
  else if 'a' ≤ c ∧ c ≤ 'f' then some (c.toNat - 'a'.toNat + 10)
  else if 'A' ≤ c ∧ c ≤ 'F' then some (c.toNat - 'A'.toNat + 10)
  else none

theorem hexValue?_digitChar {d : Nat} (h : d < 16) : hexValue? (Nat.digitChar d) = some d := by
  have hall : ∀ d < 16, hexValue? (Nat.digitChar d) = some d := by decide
  exact hall d h

end JPlusPlus.Text
