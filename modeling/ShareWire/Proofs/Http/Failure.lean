import ShareWire.Http.Request

/-!
# Failures of requests

Which errors the steps of a request can end with. The laws follow the way in which steps are put
together, so what a whole step can fail with is what its parts can.
-/

namespace ShareWire.Http

/-- Whatever request it is run on, a step fails with errors of one kind only. -/
def FailsOnly {α : Type} (kind : ExchangeError → Prop) (step : RequestM α) : Prop :=
  ∀ request error, (step.run.run request).1 = .error error → kind error

theorem run_bind_ok {α β : Type} {step : RequestM α} {next : α → RequestM β} {request later : Request}
    {a : α} (h : step.run.run request = (.ok a, later)) :
    (step >>= next).run.run request = (next a).run.run later := by
  rw [ExceptT.run_bind, StateT.run_bind, h]
  rfl

theorem run_bind_error {α β : Type} {step : RequestM α} {next : α → RequestM β}
    {request later : Request} {error : ExchangeError} (h : step.run.run request = (.error error, later)) :
    (step >>= next).run.run request = (.error error, later) := by
  rw [ExceptT.run_bind, StateT.run_bind, h]
  rfl

namespace FailsOnly

variable {α β : Type} {kind : ExchangeError → Prop}

theorem pure (a : α) : FailsOnly kind (Pure.pure a : RequestM α) := by
  intro request error h
  cases h

theorem throw {error : ExchangeError} (h : kind error) :
    FailsOnly kind (MonadExcept.throw error : RequestM α) := by
  intro request found hfound
  obtain rfl := Except.error.inj hfound
  exact h

theorem bind {step : RequestM α} {next : α → RequestM β} (h : FailsOnly kind step)
    (hnext : ∀ a, FailsOnly kind (next a)) : FailsOnly kind (step >>= next) := by
  intro request error herror
  rcases hstep : step.run.run request with ⟨e | a, later⟩
  · rw [run_bind_error hstep] at herror
    obtain rfl := Except.error.inj herror
    exact h request e (by rw [hstep])
  · rw [run_bind_ok hstep] at herror
    exact hnext a later error herror

theorem forM {γ : Type} {step : γ → RequestM PUnit} (h : ∀ a, FailsOnly kind (step a)) (l : List γ) :
    FailsOnly kind (l.forM step) := by
  induction l with
  | nil => exact pure _
  | cons a l ih => exact (h a).bind fun _ => ih

end FailsOnly

/-! ## Steps of a request -/

variable {kind : ExchangeError → Prop}

theorem failsOnly_get : FailsOnly kind (get : RequestM Request) := by
  intro request error h
  cases h

theorem failsOnly_set (later : Request) : FailsOnly kind (set later : RequestM PUnit) := by
  intro request error h
  cases h

theorem failsOnly_appendField (name : HeaderName) (value : HeaderValue) :
    FailsOnly kind (appendField name value) := by
  intro request error h
  cases h

theorem failsOnly_valueOf {name : String} (h : ∀ fault, kind (.invalidHeader name fault))
    (text : String) : FailsOnly kind (valueOf name text) := by
  unfold valueOf
  split
  · exact .pure _
  · exact .throw (h _)

theorem failsOnly_appendMetadata {entry : String × String}
    (h : ∀ fault, kind (.invalidHeader (metadataMark ++ entry.1) fault)) :
    FailsOnly kind (appendMetadata entry) := by
  unfold appendMetadata
  simp only
  split
  · exact .throw (h _)
  · exact (failsOnly_valueOf h _).bind fun _ => failsOnly_appendField _ _

def NamesCommonField : ExchangeError → Prop
  | .invalidHeader name _ =>
    name = "x-ms-version" ∨ name = "user-agent" ∨ ∃ key, name = metadataMark ++ key
  | _ => False

theorem failsOnly_updater (updater : Updater) : FailsOnly NamesCommonField updater.run := by
  cases updater with
  | none => exact .pure _
  | standard apiVersion userAgent =>
    refine failsOnly_get.bind fun request => ?_
    have hlater : FailsOnly NamesCommonField (do
        appendField .version (← valueOf "x-ms-version" apiVersion)
        appendField .userAgent (← valueOf "user-agent" userAgent)
        request.metadata.entries.forM appendMetadata) := by
      refine (failsOnly_valueOf (fun _ => .inl rfl) _).bind fun _ =>
        (failsOnly_appendField _ _).bind fun _ => ?_
      refine (failsOnly_valueOf (fun _ => .inr (.inl rfl)) _).bind fun _ =>
        (failsOnly_appendField _ _).bind fun _ => ?_
      exact .forM (fun entry => failsOnly_appendMetadata fun _ => .inr (.inr ⟨entry.1, rfl⟩)) _
    split
    · exact (failsOnly_appendField _ _).bind fun _ => hlater
    · exact hlater

def IsRefusal : ExchangeError → Prop
  | .signing _ => True
  | _ => False

theorem failsOnly_runSigner (signer : Signer) : FailsOnly IsRefusal (runSigner signer) := by
  unfold runSigner
  refine failsOnly_get.bind fun request => ?_
  refine FailsOnly.bind (failsOnly_set _) fun _ => ?_
  split
  · exact .pure _
  · exact .throw trivial

end ShareWire.Http
