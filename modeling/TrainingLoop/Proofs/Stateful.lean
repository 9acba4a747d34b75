import Mathlib.Order.Defs.Unbundled
import TrainingLoop.Stateful
/-!
# Laws of stateful computations

How composed computations run, in the direction in which proofs read a run: a computation that
succeeded has parts that did. `Keeps` is for what a computation does to its state whatever its
result, `Respects` for two runs of one computation, `Agree` for runs of two computations that both
succeed, and `SucceedsOn` for computations that cannot fail.
-/

namespace TrainingLoop

namespace Stateful

variable {S T α β : Type}

/-! ## Runs of composed computations -/

@[simp] theorem runOn_pure (a : α) (s : S) : (pure a : Stateful S α).runOn s = (.ok a, s) := rfl

@[simp] theorem runOn_get (s : S) : (get : Stateful S S).runOn s = (.ok s, s) := rfl

@[simp] theorem runOn_modify (f : S → S) (s : S) :
    (modify f : Stateful S Unit).runOn s = (.ok (), f s) := rfl

@[simp] theorem runOn_throw (e : Error) (s : S) :
    (throw e : Stateful S α).runOn s = (.error e, s) := rfl

theorem runOn_bind (x : Stateful S α) (f : α → Stateful S β) (s : S) :
    (x >>= f).runOn s =
      match x.runOn s with
      | (.ok a, s') => (f a).runOn s'
      | (.error e, s') => (.error e, s') := by
  change ExceptT.bindCont f (x.runOn s).1 (x.runOn s).2 = _
  cases x.runOn s with
  | mk result s' => cases result <;> rfl

-- The parentheses keep `simp` from using these two by definitional equality: the kernel would then
-- compare the computations before it compares their runs.
@[simp] theorem runOn_get_bind (f : S → Stateful S β) (s : S) :
    (get >>= f).runOn s = (f s).runOn s := (rfl)

@[simp] theorem runOn_modify_bind (f : S → S) (g : Unit → Stateful S β) (s : S) :
    (modify f >>= g).runOn s = (g ()).runOn (f s) := (rfl)

@[simp] theorem runOn_onPart (getPart : S → T) (put : T → S → S) (action : Stateful T α) (s : S) :
    (onPart getPart put action).runOn s =
      ((action.runOn (getPart s)).1, put (action.runOn (getPart s)).2 s) := rfl

@[simp] theorem runOn_lift (x : Except Error α) (s : S) :
    (liftM x : Stateful S α).runOn s = (x, s) := by
  cases x <;> rfl

@[simp] theorem runOn_lift_bind (a : α) (f : α → Stateful S β) (s : S) :
    ((liftM (Except.ok a : Except Error α) : Stateful S α) >>= f).runOn s = (f a).runOn s := (rfl)

/-- A composed computation fails with its first part or goes on from there. -/
theorem bind_runs {x : Stateful S α} {f : α → Stateful S β} {s s'' : S} {result : Except Error β}
    (h : (x >>= f).runOn s = (result, s'')) :
    (∃ e, x.runOn s = (.error e, s'') ∧ result = .error e) ∨
      ∃ a s', x.runOn s = (.ok a, s') ∧ (f a).runOn s' = (result, s'') := by
  rw [runOn_bind] at h
  cases hx : x.runOn s with
  | mk first s' =>
      rw [hx] at h
      cases first with
      | error e =>
          cases h
          exact .inl ⟨e, rfl, rfl⟩
      | ok a => exact .inr ⟨a, s', rfl, h⟩

theorem bind_ok {x : Stateful S α} {f : α → Stateful S β} {s s'' : S} {b : β}
    (h : (x >>= f).runOn s = (.ok b, s'')) :
    ∃ a s', x.runOn s = (.ok a, s') ∧ (f a).runOn s' = (.ok b, s'') := by
  rcases bind_runs h with ⟨e, -, herror⟩ | hok
  · cases herror
  · exact hok

theorem lift_ok {x : Except Error α} {s s' : S} {a : α}
    (h : (liftM x : Stateful S α).runOn s = (.ok a, s')) : x = .ok a ∧ s' = s := by
  rw [runOn_lift] at h
  cases h
  exact ⟨rfl, rfl⟩

theorem map_ok {x : Stateful S α} {f : α → β} {s s' : S} {b : β}
    (h : (f <$> x).runOn s = (.ok b, s')) : ∃ a, x.runOn s = (.ok a, s') ∧ f a = b := by
  rw [map_eq_pure_bind] at h
  obtain ⟨a, s₁, hx, hb⟩ := bind_ok h
  simp only [runOn_pure, Prod.mk.injEq, Except.ok.injEq] at hb
  obtain ⟨hb, rfl⟩ := hb
  exact ⟨a, hx, hb⟩

theorem onPart_runs {getPart : S → T} {put : T → S → S} {action : Stateful T α} {s s' : S}
    {result : Except Error α} (h : (onPart getPart put action).runOn s = (result, s')) :
    ∃ part, action.runOn (getPart s) = (result, part) ∧ s' = put part s := by
  simp only [runOn_onPart, Prod.mk.injEq] at h
  exact ⟨(action.runOn (getPart s)).2, Prod.ext h.1 rfl, h.2.symm⟩

theorem onPart_ok {getPart : S → T} {put : T → S → S} {action : Stateful T α} {s s' : S} {a : α}
    (h : (onPart getPart put action).runOn s = (.ok a, s')) :
    ∃ part, action.runOn (getPart s) = (.ok a, part) ∧ s' = put part s := onPart_runs h

theorem onPart_due_ok {getPart : S → T} {put : T → S → S} {action : Stateful T Unit} {s s' : S}
    {due : Bool} (hput : put (getPart s) s = s)
    (h : (if due then onPart getPart put action else pure ()).runOn s = (.ok (), s')) :
    ∃ part, s' = put part s ∧ (due = true → action.runOn (getPart s) = (.ok (), part)) ∧
      (due = false → part = getPart s) := by
  cases due with
  | true =>
      obtain ⟨part, hrun, hs'⟩ := onPart_ok h
      exact ⟨part, hs', fun _ => hrun, nofun⟩
  | false =>
      cases h
      exact ⟨getPart s, hput.symm, nofun, fun _ => rfl⟩

theorem onPart_due {getPart : S → T} {put : T → S → S} (hput : ∀ s, put (getPart s) s = s)
    (action : Stateful T Unit) (due : Bool) :
    (if due then onPart getPart put action else pure ()) =
      onPart getPart put (if due then action else pure ()) := by
  cases due with
  | true => rfl
  | false =>
      funext s
      exact congrArg (Prod.mk (Except.ok ())) (hput s).symm

theorem mapError_ok {f : Error → Error} {action : Stateful S α} {s s' : S} {a : α}
    (h : (mapError f action).runOn s = (.ok a, s')) : action.runOn s = (.ok a, s') := by
  simp only [mapError, runOn_of] at h
  cases hx : action.runOn s with
  | mk result s₁ =>
      rw [hx] at h
      cases result with
      | error e => cases h
      | ok b =>
          cases h
          rfl

theorem noteFailure_ok {note : Error → S → S} {action : Stateful S α} {s s' : S} {a : α} :
    (noteFailure note action).runOn s = (.ok a, s') ↔ action.runOn s = (.ok a, s') := by
  rw [noteFailure, runOn_of]
  rcases action.runOn s with ⟨_ | _, s₁⟩
  · simp
  · rfl

def returned? (action : Stateful S (Option α)) (s : S) : Option α :=
  match (action.runOn s).1 with
  | .ok result => result
  | .error _ => none

theorem returned?_eq_some {action : Stateful S (Option α)} {s : S} {a : α}
    (h : returned? action s = some a) : ∃ s', action.runOn s = (.ok (some a), s') := by
  unfold returned? at h
  cases hrun : action.runOn s with
  | mk result s' =>
      rw [hrun] at h
      cases result with
      | error e => cases h
      | ok result =>
          cases h
          exact ⟨s', rfl⟩

theorem error_of_isNone {action : Stateful S α} {s : S}
    (h : (action.runOn s).1.toOption.isNone = true) :
    ∃ e, action.runOn s = (.error e, (action.runOn s).2) := by
  cases hresult : (action.runOn s).1 with
  | ok a =>
      rw [hresult] at h
      cases h
  | error e => exact ⟨e, Prod.ext hresult rfl⟩

/-! ## What a computation keeps -/

/-- Whatever its result, the computation leaves a state that is related to the one before it. -/
def Keeps (R : S → S → Prop) (action : Stateful S α) : Prop := ∀ s, R s (action.runOn s).2

namespace Keeps

variable {R : S → S → Prop}

theorem of_ok {action : Stateful S α} (h : Keeps R action) {s s' : S} {a : α}
    (hrun : action.runOn s = (.ok a, s')) : R s s' := by
  simpa [hrun] using h s

theorem mono {R' : S → S → Prop} {action : Stateful S α} (h : Keeps R action)
    (hle : ∀ s s', R s s' → R' s s') : Keeps R' action := fun s => hle _ _ (h s)

theorem modify {f : S → S} (h : ∀ s, R s (f s)) : Keeps R (modify f : Stateful S Unit) := h

theorem attempt {action : Stateful S α} (h : Keeps R action) : Keeps R (attempt action) := h

theorem mapError {f : Error → Error} {action : Stateful S α} (h : Keeps R action) :
    Keeps R (mapError f action) := h

variable [IsPreorder S R]

theorem noteFailure {note : Error → S → S} {action : Stateful S α} (h : Keeps R action)
    (hnote : ∀ e s, R s (note e s)) : Keeps R (noteFailure note action) := by
  intro s
  have haction := h s
  rw [Stateful.noteFailure, runOn_of]
  cases hrun : action.runOn s with
  | mk result s' =>
      rw [hrun] at haction
      cases result with
      | ok a => exact haction
      | error e => exact trans_of R haction (hnote e s')

theorem pure (a : α) : Keeps R (pure a : Stateful S α) := fun s => refl_of R s

theorem throw (e : Error) : Keeps R (throw e : Stateful S α) := fun s => refl_of R s

theorem bind {x : Stateful S α} {f : α → Stateful S β} (hx : Keeps R x)
    (hf : ∀ a, Keeps R (f a)) : Keeps R (x >>= f) := by
  intro s
  have hfirst := hx s
  rw [runOn_bind]
  cases hrun : x.runOn s with
  | mk result s' =>
      rw [hrun] at hfirst
      cases result with
      | error e => exact hfirst
      | ok a => exact trans_of R hfirst (hf a s')

theorem get_bind {f : S → Stateful S β} (hf : ∀ a, Keeps R (f a)) : Keeps R (get >>= f) :=
  bind (fun s => refl_of R s) hf

theorem map {x : Stateful S α} {f : α → β} (hx : Keeps R x) : Keeps R (f <$> x) := by
  rw [map_eq_pure_bind]
  exact bind hx fun a => pure (f a)

theorem lift (x : Except Error α) : Keeps R (liftM x : Stateful S α) := by
  intro s
  rw [runOn_lift]
  exact refl_of R s

end Keeps

/-! ## Computations that do not tell states apart -/

/-- From two states in the relation the computation gives the same result, and the states after it
are in the relation again. -/
def Respects (R : S → S → Prop) (action : Stateful S α) : Prop :=
  ∀ s s', R s s' → (action.runOn s).1 = (action.runOn s').1 ∧
    R (action.runOn s).2 (action.runOn s').2

namespace Respects

variable {R : S → S → Prop}

theorem pure (a : α) : Respects R (pure a : Stateful S α) := fun _ _ h => ⟨rfl, h⟩

theorem throw (e : Error) : Respects R (throw e : Stateful S α) := fun _ _ h => ⟨rfl, h⟩

theorem lift (x : Except Error α) : Respects R (liftM x : Stateful S α) := by
  intro s s' h
  rw [runOn_lift, runOn_lift]
  exact ⟨rfl, h⟩

theorem modify {f : S → S} (h : ∀ s s', R s s' → R (f s) (f s')) :
    Respects R (modify f : Stateful S Unit) := fun s s' hs => ⟨rfl, h s s' hs⟩

theorem bind {x : Stateful S α} {f : α → Stateful S β} (hx : Respects R x)
    (hf : ∀ a, Respects R (f a)) : Respects R (x >>= f) := by
  intro s s' h
  have hfirst := hx s s' h
  rw [runOn_bind, runOn_bind]
  rcases hrun : x.runOn s with ⟨result, s₁⟩
  rcases hrun' : x.runOn s' with ⟨result', s₁'⟩
  rw [hrun, hrun'] at hfirst
  obtain ⟨rfl, h₁⟩ := hfirst
  cases result with
  | error e => exact ⟨rfl, h₁⟩
  | ok a => exact hf a s₁ s₁' h₁

theorem get_bind {f : S → Stateful S β} (hsame : ∀ s s', R s s' → f s = f s')
    (hf : ∀ a, Respects R (f a)) : Respects R (get >>= f) := by
  intro s s' h
  rw [runOn_get_bind, runOn_get_bind, ← hsame s s' h]
  exact hf s s s' h

theorem map {x : Stateful S α} {f : α → β} (hx : Respects R x) : Respects R (f <$> x) := by
  rw [map_eq_pure_bind]
  exact bind hx fun a => pure (f a)

theorem attempt {action : Stateful S α} (h : Respects R action) : Respects R (attempt action) := by
  intro s s' hs
  obtain ⟨hresult, hafter⟩ := h s s' hs
  exact ⟨congrArg Except.ok hresult, hafter⟩

theorem mapError {f : Error → Error} {action : Stateful S α} (h : Respects R action) :
    Respects R (mapError f action) := by
  intro s s' hs
  obtain ⟨hresult, hafter⟩ := h s s' hs
  exact ⟨congrArg (Except.mapError f) hresult, hafter⟩

theorem noteFailure {note : Error → S → S} {action : Stateful S α} (h : Respects R action)
    (hnote : ∀ e s s', R s s' → R (note e s) (note e s')) :
    Respects R (noteFailure note action) := by
  intro s s' hs
  have hfirst := h s s' hs
  rw [Stateful.noteFailure, runOn_of, runOn_of]
  rcases hrun : action.runOn s with ⟨result, s₁⟩
  rcases hrun' : action.runOn s' with ⟨result', s₁'⟩
  rw [hrun, hrun'] at hfirst
  obtain ⟨rfl, h₁⟩ := hfirst
  cases result with
  | ok a => exact ⟨rfl, h₁⟩
  | error e => exact ⟨rfl, hnote e s₁ s₁' h₁⟩

theorem onPart {Q : T → T → Prop} {getPart : S → T} {put : T → S → S} {action : Stateful T α}
    (h : Respects Q action) (hget : ∀ s s', R s s' → Q (getPart s) (getPart s'))
    (hput : ∀ s s' part part', R s s' → Q part part' → R (put part s) (put part' s')) :
    Respects R (onPart getPart put action) := by
  intro s s' hs
  obtain ⟨hresult, hafter⟩ := h _ _ (hget s s' hs)
  exact ⟨hresult, hput s s' _ _ hs hafter⟩

theorem eq (action : Stateful S α) : Respects (· = ·) action := by
  rintro s _ rfl
  exact ⟨rfl, rfl⟩

end Respects

/-! ## Computations that come to the same -/

/-- Where both computations succeed, from states in the relation, they give the same result, and the
states after them are in the relation again. -/
def Agree (R : S → S → Prop) (action action' : Stateful S α) : Prop :=
  ∀ ⦃s s' s₁ s₁' a a'⦄, R s s' → action.runOn s = (.ok a, s₁) → action'.runOn s' = (.ok a', s₁') →
    a = a' ∧ R s₁ s₁'

namespace Agree

variable {R : S → S → Prop}

theorem pure (a : α) : Agree R (pure a : Stateful S α) (pure a) := by
  intro s s' s₁ s₁' b b' h hrun hrun'
  cases hrun
  cases hrun'
  exact ⟨rfl, h⟩

theorem throw (e : Error) (action : Stateful S α) : Agree R (throw e) action := by
  intro s s' s₁ s₁' a a' h hrun
  cases hrun

theorem modify {f f' : S → S} (h : ∀ s s', R s s' → R (f s) (f' s')) :
    Agree R (modify f : Stateful S Unit) (modify f') := by
  intro s s' s₁ s₁' a a' hs hrun hrun'
  cases hrun
  cases hrun'
  exact ⟨rfl, h s s' hs⟩

theorem bind {x x' : Stateful S α} {f f' : α → Stateful S β} (hx : Agree R x x')
    (hf : ∀ a, Agree R (f a) (f' a)) : Agree R (x >>= f) (x' >>= f') := by
  intro s s' s₂ s₂' b b' h hrun hrun'
  obtain ⟨a, s₁, hfirst, hrest⟩ := bind_ok hrun
  obtain ⟨a', s₁', hfirst', hrest'⟩ := bind_ok hrun'
  obtain ⟨rfl, h₁⟩ := hx h hfirst hfirst'
  exact hf a h₁ hrest hrest'

theorem get_bind {f f' : S → Stateful S β} (hf : ∀ s s', R s s' → Agree R (f s) (f' s')) :
    Agree R (get >>= f) (get >>= f') := by
  intro s s' s₁ s₁' b b' h hrun hrun'
  rw [runOn_get_bind] at hrun hrun'
  exact hf s s' h h hrun hrun'

theorem map {x x' : Stateful S α} {f : α → β} (hx : Agree R x x') :
    Agree R (f <$> x) (f <$> x') := by
  rw [map_eq_pure_bind, map_eq_pure_bind]
  exact bind hx fun a => pure (f a)

theorem mapError {f : Error → Error} {action action' : Stateful S α} (h : Agree R action action') :
    Agree R (mapError f action) (mapError f action') :=
  fun _ _ _ _ _ _ hs hrun hrun' => h hs (mapError_ok hrun) (mapError_ok hrun')

theorem noteFailure {note note' : Error → S → S} {action action' : Stateful S α}
    (h : Agree R action action') : Agree R (noteFailure note action) (noteFailure note' action') :=
  fun _ _ _ _ _ _ hs hrun hrun' => h hs (noteFailure_ok.1 hrun) (noteFailure_ok.1 hrun')

theorem onPart {Q : T → T → Prop} {getPart : S → T} {put : T → S → S}
    {action action' : Stateful T α} (h : Agree Q action action')
    (hget : ∀ s s', R s s' → Q (getPart s) (getPart s'))
    (hput : ∀ s s' part part', R s s' → Q part part' → R (put part s) (put part' s')) :
    Agree R (onPart getPart put action) (onPart getPart put action') := by
  intro s s' s₁ s₁' a a' hs hrun hrun'
  obtain ⟨part, hpart, rfl⟩ := onPart_ok hrun
  obtain ⟨part', hpart', rfl⟩ := onPart_ok hrun'
  obtain ⟨hresult, hafter⟩ := h (hget s s' hs) hpart hpart'
  exact ⟨hresult, hput s s' part part' hs hafter⟩

/-- Checks that pass agree, whatever they look at. -/
theorem lift (x x' : Except Error Unit) :
    Agree R (liftM x : Stateful S Unit) (liftM x' : Stateful S Unit) := by
  intro s s' s₁ s₁' _ _ h hrun hrun'
  obtain ⟨-, rfl⟩ := lift_ok hrun
  obtain ⟨-, rfl⟩ := lift_ok hrun'
  exact ⟨rfl, h⟩

theorem eq (action : Stateful S α) : Agree (· = ·) action action := by
  rintro s _ s₁ s₁' a a' rfl hrun hrun'
  rw [hrun] at hrun'
  cases hrun'
  exact ⟨rfl, rfl⟩

/-- Computations need not be the same where each leaves a state in the relation with the one before
it. -/
theorem of_apart {action action' : Stateful S Unit} (hsymm : ∀ s s', R s s' → R s' s)
    (htrans : ∀ s s' s'', R s s' → R s' s'' → R s s'')
    (h : ∀ s s₁, R s s → action.runOn s = (.ok (), s₁) → R s s₁)
    (h' : ∀ s s₁, R s s → action'.runOn s = (.ok (), s₁) → R s s₁) : Agree R action action' := by
  intro s s' s₁ s₁' _ _ hs hrun hrun'
  have hleft : R s s₁ := h s s₁ (htrans _ _ _ hs (hsymm _ _ hs)) hrun
  have hright : R s' s₁' := h' s' s₁' (htrans _ _ _ (hsymm _ _ hs) hs) hrun'
  exact ⟨rfl, htrans _ _ _ (hsymm _ _ hleft) (htrans _ _ _ hs hright)⟩

end Agree

/-! ## Computations that cannot fail -/

def SucceedsOn (P : S → Prop) (action : Stateful S α) : Prop :=
  ∀ s, P s → ∃ a s', action.runOn s = (.ok a, s') ∧ P s'

namespace SucceedsOn

variable {P : S → Prop}

theorem pure (a : α) : SucceedsOn P (pure a : Stateful S α) := fun s hs => ⟨a, s, rfl, hs⟩

theorem modify {f : S → S} (h : ∀ s, P s → P (f s)) :
    SucceedsOn P (modify f : Stateful S Unit) := fun s hs => ⟨(), f s, rfl, h s hs⟩

theorem bind {x : Stateful S α} {f : α → Stateful S β} (hx : SucceedsOn P x)
    (hf : ∀ a, SucceedsOn P (f a)) : SucceedsOn P (x >>= f) := by
  intro s hs
  obtain ⟨a, s', hrun, hs'⟩ := hx s hs
  obtain ⟨b, s'', hrun', hs''⟩ := hf a s' hs'
  exact ⟨b, s'', by rw [runOn_bind, hrun]; exact hrun', hs''⟩

theorem get_bind {f : S → Stateful S β} (hf : ∀ a, SucceedsOn P (f a)) :
    SucceedsOn P (get >>= f) :=
  bind (fun s hs => ⟨s, s, rfl, hs⟩) hf

theorem onPart {Q : T → Prop} {getPart : S → T} {put : T → S → S} {action : Stateful T α}
    (h : SucceedsOn Q action) (hget : ∀ s, P s → Q (getPart s))
    (hput : ∀ s part, P s → Q part → P (put part s)) :
    SucceedsOn P (onPart getPart put action) := by
  intro s hs
  obtain ⟨a, part, hrun, hpart⟩ := h (getPart s) (hget s hs)
  exact ⟨a, put part s, by simp [hrun], hput s part hs hpart⟩

theorem mapError {f : Error → Error} {action : Stateful S α} (h : SucceedsOn P action) :
    SucceedsOn P (mapError f action) := by
  intro s hs
  obtain ⟨a, s', hrun, hs'⟩ := h s hs
  exact ⟨a, s', by rw [Stateful.mapError, runOn_of, hrun]; rfl, hs'⟩

theorem noteFailure {note : Error → S → S} {action : Stateful S α} (h : SucceedsOn P action) :
    SucceedsOn P (noteFailure note action) := by
  intro s hs
  obtain ⟨a, s', hrun, hs'⟩ := h s hs
  exact ⟨a, s', noteFailure_ok.2 hrun, hs'⟩

end SucceedsOn

end Stateful

end TrainingLoop
