import ListingEditor.Step

/-!
What a step comes to follows from what its parts come to, with its reports and without them.
-/

namespace ListingEditor.Step

variable {ε σ α β : Type}

@[simp] theorem run_bind_look (f : σ → α) (next : α → Step ε σ β) (s : σ) :
    (look f >>= next).run s = (next (f s)).run s := rfl

@[simp] theorem run_bind_change (f : σ → σ) (next : Unit → Step ε σ β) (s : σ) :
    (change f >>= next).run s = (next ()).run (f s) := rfl

@[simp] theorem run_bind_report (place : Log.Place) (owner text : String) (next : Unit → Step ε σ β) (s : σ) :
    (report place owner text >>= next).run s =
      { (next ()).run s with trace := .debug place owner text :: ((next ()).run s).trace } := rfl

/-- What a step comes to, without what it reports. -/
def effect (step : Step ε σ α) (s : σ) : Except ε α × σ := ((step.run s).result, (step.run s).state)

@[simp] theorem effect_pure (a : α) (s : σ) : (pure a : Step ε σ α).effect s = (.ok a, s) := rfl

@[simp] theorem effect_change (f : σ → σ) (s : σ) :
    (change f : Step ε σ Unit).effect s = (.ok (), f s) := rfl

@[simp] theorem effect_bind_look (f : σ → α) (next : α → Step ε σ β) (s : σ) :
    (look f >>= next).effect s = (next (f s)).effect s := rfl

@[simp] theorem effect_bind_change (f : σ → σ) (next : Unit → Step ε σ β) (s : σ) :
    (change f >>= next).effect s = (next ()).effect (f s) := rfl

@[simp] theorem effect_bind_report (place : Log.Place) (owner text : String)
    (next : Unit → Step ε σ β) (s : σ) :
    (report place owner text >>= next).effect s = (next ()).effect s := rfl

theorem effect_bind_of_ok {first : Step ε σ α} {next : α → Step ε σ β} {s t : σ} {a : α}
    (hfirst : first.effect s = (.ok a, t)) : (first >>= next).effect s = (next a).effect t := by
  obtain ⟨hresult, rfl⟩ := Prod.mk.inj hfirst
  rw [effect, run_bind_of_ok hresult]
  rfl

theorem effect_bind_of_error {first : Step ε σ α} {next : α → Step ε σ β} {s t : σ} {e : ε}
    (hfirst : first.effect s = (.error e, t)) : (first >>= next).effect s = (.error e, t) := by
  obtain ⟨hresult, rfl⟩ := Prod.mk.inj hfirst
  rw [effect, run_bind_of_error hresult]

theorem effect_bind_congr {first other : Step ε σ α} (next : α → Step ε σ β) {s t : σ}
    (hsame : first.effect s = other.effect t) : (first >>= next).effect s = (other >>= next).effect t := by
  cases heffect : other.effect t with
  | mk result u =>
    rw [heffect] at hsame
    cases result with
    | error e => rw [effect_bind_of_error hsame, effect_bind_of_error heffect]
    | ok a => rw [effect_bind_of_ok hsame, effect_bind_of_ok heffect]

theorem effect_bind_bind {γ : Type} (first : Step ε σ α) (middle : α → Step ε σ β) (last : β → Step ε σ γ)
    (s : σ) :
    ((first >>= middle) >>= last).effect s = (first >>= fun a => middle a >>= last).effect s := by
  cases heffect : first.effect s with
  | mk result t =>
    cases result with
    | error e => rw [effect_bind_of_error (effect_bind_of_error heffect), effect_bind_of_error heffect]
    | ok a => rw [effect_bind_of_ok heffect, effect_bind_congr last (effect_bind_of_ok heffect)]

/-- Reporting what a step has found does not change what it comes to. -/
theorem effect_bind_report_return (first : Step ε σ α) (place : Log.Place) (owner : String)
    (text : α → String) (s : σ) :
    (first >>= fun a => report place owner (text a) >>= fun _ => pure a).effect s = first.effect s := by
  cases heffect : first.effect s with
  | mk result t =>
    cases result with
    | error e => exact effect_bind_of_error heffect
    | ok a =>
      rw [effect_bind_of_ok heffect]
      rfl

theorem effect_bind_ask_of_ok {f : σ → Except ε α} {next : α → Step ε σ β} {s : σ} {a : α}
    (hanswer : f s = .ok a) : (ask f >>= next).effect s = (next a).effect s :=
  effect_bind_of_ok (congrArg (·, s) hanswer)

theorem effect_bind_ask_of_error {f : σ → Except ε α} {next : α → Step ε σ β} {s : σ} {e : ε}
    (hanswer : f s = .error e) : (ask f >>= next).effect s = (.error e, s) :=
  effect_bind_of_error (congrArg (·, s) hanswer)

end ListingEditor.Step
