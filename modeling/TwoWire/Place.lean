/-! A part of a larger state that can be read and replaced. Callbacks and drivers
reach the state they share with others through places. -/

namespace TwoWire

structure Place (σ α : Type) where
  get : σ → α
  set : α → σ → σ

namespace Place

variable {σ α β : Type}

/-- Reading gives what was last put there, and putting back what was read changes
nothing. -/
structure Lawful (p : Place σ α) : Prop where
  get_set : ∀ a s, p.get (p.set a s) = a
  set_get : ∀ s, p.set (p.get s) s = s
  set_set : ∀ a b s, p.set a (p.set b s) = p.set a s

def whole : Place σ σ := ⟨id, fun a _ => a⟩

theorem whole_lawful : (whole : Place σ σ).Lawful :=
  ⟨fun _ _ => rfl, fun _ => rfl, fun _ _ _ => rfl⟩

/-- Runs a step of the part inside the larger state. -/
def run (p : Place σ α) (step : α → β × α) (s : σ) : β × σ :=
  let (b, a) := step (p.get s)
  (b, p.set a s)

def within (outer : Place σ α) (inner : Place α β) : Place σ β where
  get s := inner.get (outer.get s)
  set b s := outer.set (inner.set b (outer.get s)) s

theorem within_lawful {outer : Place σ α} {inner : Place α β} (ho : outer.Lawful)
    (hi : inner.Lawful) : (outer.within inner).Lawful where
  get_set b s := by simp [within, ho.get_set, hi.get_set]
  set_get s := by simp [within, ho.set_get, hi.set_get]
  set_set a b s := by simp [within, ho.get_set, ho.set_set, hi.set_set]

/-- An entry of a list; where there is none, reading gives `missing` and nothing can
be put. -/
def entry (i : Nat) (missing : α) : Place (List α) α where
  get l := l.getD i missing
  set a l := l.set i a

end Place

end TwoWire
