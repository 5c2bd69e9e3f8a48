import CasperContracts.Basis.Simulation

/-!
# Calls that keep a copy

A running call works on a copy of a part of its storage that was made when it
started.  The calls that it makes in turn start from copies of their own, so what
they write there reaches the storage, but not the copy.  `Prog.framed` turns a program
over a copy and the storage into one over the storage; a simulation by the former is
one by the latter (`Simulates.keeping`).
-/

namespace CasperContracts.Basis

/-- What a running call keeps for itself, and the storage it shares with all others. -/
structure Framed (Λ σ : Type) where
  own : Λ
  shared : σ

namespace Prog

variable {Λ σ ε γ ω α : Type}

/-- Go on with `own` for the copy.  A request sees the shared storage only. -/
def keeping (own : Λ) : Prog (Framed Λ σ) ε γ ω α → Prog σ ε γ ω α
  | .pure value => .pure value
  | .fail error => .fail error
  | .get next => .get fun shared => (next ⟨own, shared⟩).keeping own
  | .put frame next => .put frame.shared (next.keeping frame.own)
  | .emit event next => .emit event (next.keeping own)
  | .call request next => .call request (next.keeping own)

/-- Start with the copy that `take` makes. -/
def framed (take : σ → Λ) (program : Prog (Framed Λ σ) ε γ ω α) : Prog σ ε γ ω α :=
  .get fun shared => program.keeping (take shared)

end Prog

section Keeping

variable {Λ σ τ ε ε' γ ω α β : Type}
variable {R : σ → τ → Prop} {K : σ → τ → σ → τ → Prop} {F : ε → ε' → Prop}
variable {Seen : σ → Framed Λ τ → Prop}
variable {post : α → σ → β → Framed Λ τ → Prop}
variable {p : Prog σ ε γ ω α} {q : Prog (Framed Λ τ) ε' γ ω β} {s : σ} {frame : Framed Λ τ}

/-- The copy is as it was, and the storages have changed as `K` says. -/
def KeepsOwn (K : σ → τ → σ → τ → Prop) (s : σ) (frame : Framed Λ τ) (s' : σ)
    (frame' : Framed Λ τ) : Prop :=
  frame'.own = frame.own ∧ K s frame.shared s' frame'.shared

/-- What a program over frames simulates is simulated by the program it becomes, as long
as a call can hand its storage out and go on with what it finds and its old copy. -/
theorem Simulates.keeping (sim : Simulates Seen (KeepsOwn K) F post p s q frame)
    (hand : ∀ s frame, Seen s frame → R s frame.shared)
    (back : ∀ s frame s' t', Seen s frame → R s' t' → K s frame.shared s' t' →
      Seen s' ⟨frame.own, t'⟩) :
    Simulates R K F (fun a s b t => ∃ own, post a s b ⟨own, t⟩) p s
      (q.keeping frame.own) frame.shared := by
  induction sim with
  | pure ends => exact .pure ⟨_, ends⟩
  | fail alike => exact .fail alike
  | getLeft _ ih => exact .getLeft ih
  | getRight _ ih => exact .getRight ih
  | putLeft _ ih => exact .putLeft ih
  | putRight _ ih => exact .putRight ih
  | emit _ ih => exact .emit ih
  | @call c p q s frame related _ ih =>
      refine .call (hand s frame related) fun s' t' related' kept => ?_
      exact ih s' ⟨frame.own, t'⟩ (back s frame s' t' related related' kept) ⟨rfl, kept⟩

end Keeping

end CasperContracts.Basis
