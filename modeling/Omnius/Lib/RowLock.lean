/-
# Row locks: what transactions see while one of them holds the rows

A group of rows that a transaction locks with its first statement and holds to its end.  While it
is held, the holder works on its own copy and everybody else sees the committed one; a statement
that needs the rows waits.  So there are never more than two states to speak about, the COMMITTED
one and the HOLDER'S, each with the effects that led to it, newest first.

The rule that programs use is `Sound`: what every statement keeps of the state and its effects,
seen from the transaction that runs it, holds of both states on every interleaving of statements,
commits and rollbacks.  Nothing is said about who may write; that is the program's business.
-/
import Mathlib.Logic.Basic

namespace Omnius.Lib

/-- A transaction that holds the rows: its copy of them, and what it did to them. -/
structure Held (σ ε : Type*) where
  txn : Nat
  state : σ
  effects : List ε

/-- Rows under one lock, with the effects committed to them. -/
structure Locked (σ ε : Type*) where
  committed : σ
  log : List ε
  holder : Option (Held σ ε)

namespace Locked

variable {σ ε : Type*}

section

variable (l : Locked σ ε) (txn : Nat)

/-- No other transaction holds the rows. -/
def free : Bool := l.holder.all (·.txn = txn)

/-- What the transaction holds, if it is the holder. -/
def ownOf : Option (Held σ ε) := l.holder.filter (·.txn = txn)

def view : σ := (l.ownOf txn).elim l.committed (·.state)

/-- The effects behind the transaction's view. -/
def viewLog : List ε :=
  (l.ownOf txn).elim l.log (·.effects ++ l.log)

/-- The transaction takes the rows, if it does not hold them, and writes them. -/
def write (state : σ) (news : List ε) : Locked σ ε :=
  { l with holder := some ⟨txn, state, news ++ (l.ownOf txn).elim [] (·.effects)⟩ }

/-- The end of a transaction: its copy becomes the committed one. -/
def commit : Locked σ ε :=
  match l.ownOf txn with
  | none => l
  | some held => ⟨held.state, held.effects ++ l.log, none⟩

/-- The other end: its copy is forgotten. -/
def rollback : Locked σ ε :=
  match l.ownOf txn with
  | none => l
  | some _ => { l with holder := none }

end

/-- `I` holds of both states. -/
structure Sound (I : σ → List ε → Prop) (l : Locked σ ε) : Prop where
  committed : I l.committed l.log
  held : ∀ held, l.holder = some held → I held.state (held.effects ++ l.log)

variable {l : Locked σ ε} {txn : Nat} {I J : σ → List ε → Prop}

theorem ownOf_eq_some {held : Held σ ε} (h : l.ownOf txn = some held) :
    l.holder = some held ∧ held.txn = txn := by
  simpa [ownOf] using h

theorem own_append_log (l : Locked σ ε) (txn : Nat) :
    (l.ownOf txn).elim [] (·.effects) ++ l.log = l.viewLog txn := by
  unfold viewLog
  cases l.ownOf txn <;> rfl

namespace Sound

variable (h : Sound I l)

include h

theorem mono (hIJ : ∀ state log, I state log → J state log) : Sound J l :=
  ⟨hIJ _ _ h.committed, fun held hheld => hIJ _ _ (h.held held hheld)⟩

theorem view (txn : Nat) : I (l.view txn) (l.viewLog txn) := by
  unfold Locked.view viewLog
  cases hown : l.ownOf txn with
  | none => exact h.committed
  | some held => exact h.held held (ownOf_eq_some hown).1

theorem write {state : σ} {news : List ε}
    (hI : I state (news ++ l.viewLog txn)) : Sound I (l.write txn state news) := by
  refine ⟨h.committed, ?_⟩
  rintro held ⟨⟩
  change I state ((news ++ (l.ownOf txn).elim [] (·.effects)) ++ l.log)
  rw [List.append_assoc, own_append_log]
  exact hI

theorem commit (txn : Nat) : Sound I (l.commit txn) := by
  unfold Locked.commit
  split
  · exact h
  · next held hown => exact ⟨h.held held (ownOf_eq_some hown).1, nofun⟩

theorem rollback (txn : Nat) : Sound I (l.rollback txn) := by
  unfold Locked.rollback
  split
  · exact h
  · exact ⟨h.committed, nofun⟩

end Sound

end Locked

end Omnius.Lib
