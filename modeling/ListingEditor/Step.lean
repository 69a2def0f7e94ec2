import ListingEditor.Log

/-!
Steps: computations that read and change a state, may fail, and report what they do. A step that fails leaves
the state as it was when it failed, not as it was before.
-/

namespace ListingEditor

/-- What a step comes to: a value or an error, the state it leaves, and what it reported. -/
structure Outcome (ε σ α : Type) where
  result : Except ε α
  state : σ
  trace : List Log.Entry

/-- A computation on states of type `σ` that may fail with an `ε`. -/
def Step (ε σ α : Type) : Type := σ → Outcome ε σ α

namespace Step

variable {ε σ α β : Type}

/-- Runs a step. -/
def run (step : Step ε σ α) (s : σ) : Outcome ε σ α := step s

instance : Monad (Step ε σ) where
  pure a := fun s => ⟨.ok a, s, []⟩
  bind first next := fun s =>
    let left := first s
    match left.result with
    | .ok a =>
      let right := next a left.state
      ⟨right.result, right.state, left.trace ++ right.trace⟩
    | .error e => ⟨.error e, left.state, left.trace⟩

/-- Reads something off the state. -/
def look (f : σ → α) : Step ε σ α := fun s => ⟨.ok (f s), s, []⟩

/-- Reads something off the state that may not be there. -/
def ask (f : σ → Except ε α) : Step ε σ α := fun s => ⟨f s, s, []⟩

/-- Changes the state. -/
def change (f : σ → σ) : Step ε σ Unit := fun s => ⟨.ok (), f s, []⟩

/-- Fails. -/
def fail (e : ε) : Step ε σ α := fun s => ⟨.error e, s, []⟩

/-- Reports something on behalf of an owner that is being debugged. -/
def report (place : Log.Place) (owner : String) (text : String) : Step ε σ Unit := fun s =>
  ⟨.ok (), s, [.debug place owner text]⟩

@[simp] theorem run_pure (a : α) (s : σ) : (pure a : Step ε σ α).run s = ⟨.ok a, s, []⟩ := rfl

@[simp] theorem run_look (f : σ → α) (s : σ) :
    (look f : Step ε σ α).run s = ⟨.ok (f s), s, []⟩ := rfl

@[simp] theorem run_ask (f : σ → Except ε α) (s : σ) : (ask f).run s = ⟨f s, s, []⟩ := rfl

@[simp] theorem run_change (f : σ → σ) (s : σ) :
    (change f : Step ε σ Unit).run s = ⟨.ok (), f s, []⟩ := rfl

@[simp] theorem run_fail (e : ε) (s : σ) : (fail e : Step ε σ α).run s = ⟨.error e, s, []⟩ := rfl

theorem run_bind_of_ok {first : Step ε σ α} {next : α → Step ε σ β} {s : σ} {a : α}
    (hresult : (first.run s).result = .ok a) :
    (first >>= next).run s =
      ⟨((next a).run (first.run s).state).result, ((next a).run (first.run s).state).state,
        (first.run s).trace ++ ((next a).run (first.run s).state).trace⟩ := by
  change (match (first.run s).result with
    | .ok a =>
      (⟨((next a).run (first.run s).state).result, ((next a).run (first.run s).state).state,
        (first.run s).trace ++ ((next a).run (first.run s).state).trace⟩ : Outcome ε σ β)
    | .error e => ⟨.error e, (first.run s).state, (first.run s).trace⟩) = _
  rw [hresult]

theorem run_bind_of_error {first : Step ε σ α} {next : α → Step ε σ β} {s : σ} {e : ε}
    (hresult : (first.run s).result = .error e) :
    (first >>= next).run s = ⟨.error e, (first.run s).state, (first.run s).trace⟩ := by
  change (match (first.run s).result with
    | .ok a =>
      (⟨((next a).run (first.run s).state).result, ((next a).run (first.run s).state).state,
        (first.run s).trace ++ ((next a).run (first.run s).state).trace⟩ : Outcome ε σ β)
    | .error e => ⟨.error e, (first.run s).state, (first.run s).trace⟩) = _
  rw [hresult]

end Step

end ListingEditor
