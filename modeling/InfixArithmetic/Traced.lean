import InfixArithmetic.Event

namespace InfixArithmetic

/-- The events logged by a computation, in order, and its outcome. Those logged before a failure are
kept. -/
structure Traced (ε α : Type) where
  events : List Event
  outcome : Except ε α

namespace Traced

variable {ε ε' α β : Type}

/-- Runs the second computation if the first one succeeds. -/
def andThen (x : Traced ε α) (next : α → Traced ε β) : Traced ε β :=
  match x.outcome with
  | .error error => ⟨x.events, .error error⟩
  | .ok a =>
      let y := next a
      ⟨x.events ++ y.events, y.outcome⟩

instance : Monad (Traced ε) where
  pure a := ⟨[], .ok a⟩
  bind := andThen

def log (event : Event) : Traced ε Unit :=
  ⟨[event], .ok ()⟩

def logAll (events : List Event) : Traced ε Unit :=
  ⟨events, .ok ()⟩

def ofExcept (outcome : Except ε α) : Traced ε α :=
  ⟨[], outcome⟩

def fail (error : ε) : Traced ε α :=
  ⟨[], .error error⟩

def mapError (f : ε → ε') (x : Traced ε α) : Traced ε' α :=
  ⟨x.events, x.outcome.mapError f⟩

@[simp] theorem outcome_pure (a : α) : (pure a : Traced ε α).outcome = .ok a := rfl

@[simp] theorem outcome_log (event : Event) : (log event : Traced ε Unit).outcome = .ok () := rfl

@[simp] theorem outcome_logAll (events : List Event) :
    (logAll events : Traced ε Unit).outcome = .ok () := rfl

@[simp] theorem outcome_ofExcept (outcome : Except ε α) :
    (ofExcept outcome).outcome = outcome := rfl

@[simp] theorem outcome_fail (error : ε) : (fail error : Traced ε α).outcome = .error error := rfl

@[simp] theorem outcome_mapError (f : ε → ε') (x : Traced ε α) :
    (x.mapError f).outcome = x.outcome.mapError f := rfl

@[simp] theorem outcome_bind (x : Traced ε α) (next : α → Traced ε β) :
    (x >>= next).outcome = x.outcome.bind fun a => (next a).outcome := by
  obtain ⟨events, _ | a⟩ := x <;> rfl

theorem bind_eq_ok_iff {outcome : Except ε α} {next : α → Except ε β} {b : β} :
    outcome.bind next = .ok b ↔ ∃ a, outcome = .ok a ∧ next a = .ok b := by
  cases outcome with
  | error error => simp [Except.bind]
  | ok a => simp [Except.bind]

theorem mapError_eq_ok_iff {f : ε → ε'} {outcome : Except ε α} {a : α} :
    outcome.mapError f = .ok a ↔ outcome = .ok a := by
  cases outcome with
  | error error =>
      constructor
      · intro h
        cases h
      · intro h
        cases h
  | ok a' =>
      constructor
      · intro h
        cases h
        rfl
      · intro h
        cases h
        rfl

theorem bind_eq_error_iff {outcome : Except ε α} {next : α → Except ε β} {error : ε} :
    outcome.bind next = .error error ↔
      outcome = .error error ∨ ∃ a, outcome = .ok a ∧ next a = .error error := by
  cases outcome with
  | error error' => simp [Except.bind]
  | ok a => simp [Except.bind]

theorem mapError_eq_error_iff {f : ε → ε'} {outcome : Except ε α} {error' : ε'} :
    outcome.mapError f = .error error' ↔ ∃ error, outcome = .error error ∧ f error = error' := by
  cases outcome with
  | error error =>
      constructor
      · intro h
        cases h
        exact ⟨error, rfl, rfl⟩
      · rintro ⟨_, h, rfl⟩
        cases h
        rfl
  | ok a =>
      constructor
      · intro h
        cases h
      · rintro ⟨_, h, _⟩
        cases h

@[simp] theorem events_pure (a : α) : (pure a : Traced ε α).events = [] := rfl

@[simp] theorem events_log (event : Event) : (log event : Traced ε Unit).events = [event] := rfl

@[simp] theorem events_logAll (events : List Event) :
    (logAll events : Traced ε Unit).events = events := rfl

@[simp] theorem events_ofExcept (outcome : Except ε α) : (ofExcept outcome).events = [] := rfl

@[simp] theorem events_fail (error : ε) : (fail error : Traced ε α).events = [] := rfl

@[simp] theorem events_mapError (f : ε → ε') (x : Traced ε α) :
    (x.mapError f).events = x.events := rfl

theorem events_bind_of_ok {x : Traced ε α} {a : α} (next : α → Traced ε β)
    (h : x.outcome = .ok a) : (x >>= next).events = x.events ++ (next a).events := by
  obtain ⟨events, outcome⟩ := x
  cases h
  rfl

theorem events_bind_of_error {x : Traced ε α} {error : ε} (next : α → Traced ε β)
    (h : x.outcome = .error error) : (x >>= next).events = x.events := by
  obtain ⟨events, outcome⟩ := x
  cases h
  rfl

theorem eq_mk_of_outcome_eq {x : Traced ε α} {outcome : Except ε α} (h : x.outcome = outcome) :
    x = ⟨x.events, outcome⟩ := by
  subst h
  rfl

theorem bind_eq_mk_ok_iff {x : Traced ε α} {next : α → Traced ε β} {events : List Event} {b : β} :
    (x >>= next) = ⟨events, .ok b⟩ ↔
      ∃ first a second, x = ⟨first, .ok a⟩ ∧ next a = ⟨second, .ok b⟩ ∧
        events = first ++ second := by
  constructor
  · intro h
    obtain ⟨first, _ | a⟩ := x
    · cases h
    · obtain ⟨hevents, houtcome⟩ := mk.inj h
      exact ⟨first, a, (next a).events, rfl, eq_mk_of_outcome_eq houtcome, hevents.symm⟩
  · rintro ⟨first, a, second, rfl, hnext, rfl⟩
    exact congrArg (fun y : Traced ε β => (⟨first ++ y.events, y.outcome⟩ : Traced ε β)) hnext

theorem mapError_eq_mk_ok_iff {f : ε → ε'} {x : Traced ε α} {events : List Event} {a : α} :
    x.mapError f = ⟨events, .ok a⟩ ↔ x = ⟨events, .ok a⟩ := by
  obtain ⟨events', outcome⟩ := x
  simp only [mapError, mk.injEq, mapError_eq_ok_iff]

theorem map_id (x : Traced ε α) : id <$> x = x := by
  obtain ⟨events, _ | a⟩ := x <;> simp [Functor.map, andThen]

theorem andThen_assoc {γ : Type} (x : Traced ε α) (next : α → Traced ε β) (last : β → Traced ε γ) :
    (x.andThen next).andThen last = x.andThen fun a => (next a).andThen last := by
  obtain ⟨events, _ | a⟩ := x
  · rfl
  · simp only [andThen]
    cases (next a).outcome <;> simp

instance : LawfulMonad (Traced ε) :=
  LawfulMonad.mk' (Traced ε) map_id (fun _ _ => rfl) andThen_assoc

end Traced

end InfixArithmetic
