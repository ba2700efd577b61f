import WebTransport.Client.Model
import WebTransport.Server.Model
import WebTransport.Session.Model

/-!
# Every close was asked for

A session is closed by a call, or by the task of an exit; an endpoint is closed by a
call or an exit, with a code that is refused if it does not fit.  Whatever QUIC is
told to close with was asked for, with the text of which the bytes are the encoding.
-/

namespace WebTransport

open Support Wrapper

section Obeys

variable {σ ℓ Code : Type} {step : σ → ℓ → σ → Prop} {asked? : ℓ → Option (Code × String)}
  {exits : σ → Code × String → Prop} {closes : σ → List (Code × List UInt8)}

/-- Every close that was made is one of those that were asked for. -/
def Obeys (asked : List (Code × String)) (made : List (Code × List UInt8)) : Prop :=
  ∀ code bytes, (code, bytes) ∈ made →
    ∃ reason, (code, reason) ∈ asked ∧ bytes = asBytes reason

/-- A step makes the close that it asks for, or one that an exit has asked for and
its task is to make. -/
structure ClosesAsAsked (step : σ → ℓ → σ → Prop) (asked? : ℓ → Option (Code × String))
    (exits : σ → Code × String → Prop) (closes : σ → List (Code × List UInt8)) : Prop where
  due : ∀ {s l t x}, step s l t → exits t x → exits s x ∨ asked? l = some x
  made : ∀ {s l t}, step s l t → closes t = closes s ∨
    ∃ code reason, closes t = closes s ++ [(code, asBytes reason)] ∧
      (exits s (code, reason) ∨ asked? l = some (code, reason))

/-- In a run every close was asked for. -/
theorem obeys_of_run {s t : σ} {tr : List (σ × ℓ)}
    (h : ClosesAsAsked step asked? exits closes) (hrun : Run step s tr t)
    (hexits : ∀ x, ¬ exits s x) (hcloses : closes s = []) :
    Obeys (tr.filterMap fun p => asked? p.2) (closes t) := by
  generalize hasked : (tr.filterMap fun p => asked? p.2) = asked
  have hlabels : Along (fun _ l => ∀ x, asked? l = some x → x ∈ asked) tr := by
    intro p hp x hx
    rw [← hasked]
    exact List.mem_filterMap.mpr ⟨p, hp, hx⟩
  suffices hall : (∀ x, exits t x → x ∈ asked) ∧ Obeys asked (closes t) from hall.2
  refine hrun.invariant
    (I := fun u => (∀ x, exits u x → x ∈ asked) ∧ Obeys asked (closes u)) ?_ hlabels
    ⟨fun x hx => absurd hx (hexits x), by simp [Obeys, hcloses]⟩
  rintro u l v hl hstep ⟨hdue, hmade⟩
  refine ⟨fun x hx => (h.due hstep hx).elim (hdue x) (hl x), ?_⟩
  intro code bytes hmem
  rcases h.made hstep with hsame | ⟨c, reason, hnew, hreason⟩
  · exact hmade code bytes (hsame ▸ hmem)
  · rw [hnew] at hmem
    rcases List.mem_append.mp hmem with hold | hlast
    · exact hmade code bytes hold
    · cases List.mem_singleton.mp hlast
      exact ⟨reason, hreason.elim (hdue _) (hl _), rfl⟩

end Obeys

/-! ## The session -/

namespace Session

/-- The close that a call asks for. -/
def Action.asked? : Action → Option (UInt32 × String)
  | .close code reason => some (code, reason)
  | .call .aexit => some (0, "")
  | _ => none

def Event.close? : Event → Option (UInt32 × List UInt8)
  | .close code reason => some (code, reason)
  | _ => none

def World.Exits (w : World) (x : UInt32 × String) : Prop :=
  x = (0, "") ∧ Op.aexit ∈ OneCall.ops w.tasks

section Closes

variable {errorFromHttp3 : ErrorFromHttp3} {Q : Answers Event} {w : World}

theorem close?_cases {op : Op} {pc pc' : Pc} {ans : Option Event}
    (h : (oneCall errorFromHttp3).TaskMove op pc ans pc') :
    ans.toList.filterMap Event.close? = [] ∨
      op = .aexit ∧ ans.toList.filterMap Event.close? = [(0, asBytes "")] := by
  cases h with
  | returns => exact Or.inl rfl
  | calls e hop =>
      obtain ⟨rfl, rfl⟩ := first_eq_calls hop
      exact Or.inr ⟨rfl, rfl⟩
  | polls pc e r hpc hfirst hr =>
      left
      cases e with
      | close code reason => cases op <;> cases hr
      | _ => rfl

theorem closesAsAsked :
    ClosesAsAsked (Step errorFromHttp3 Q) Action.asked? World.Exits
      fun w => w.log.filterMap Event.close? where
  due := by
    rintro w l w' x h ⟨rfl, hmem⟩
    cases h.move with
    | call op =>
        rw [OneCall.ops, List.map_append] at hmem
        rcases List.mem_append.mp hmem with hold | hnew
        · exact Or.inl ⟨rfl, hold⟩
        · cases List.mem_singleton.mp hnew
          exact Or.inr rfl
    | datagram | datagramFails | close | isOpen | isClosed => exact Or.inl ⟨rfl, hmem⟩
    | task i ans hi | drop i hi =>
        exact Or.inl ⟨rfl, by simpa only [OneCall.ops_set hi] using hmem⟩
  made := by
    intro w l w' h
    cases h.move with
    | call | drop => exact Or.inl rfl
    | datagram | datagramFails | isOpen | isClosed =>
        left
        rw [List.filterMap_append]
        exact List.append_nil _
    | close code reason =>
        exact Or.inr ⟨code, reason, List.filterMap_append, Or.inr rfl⟩
    | task i ans hi hm =>
        rcases close?_cases hm with hnone | ⟨hop, hclose⟩
        · left
          rw [List.filterMap_append, hnone, List.append_nil]
        · refine Or.inr ⟨0, "", ?_, Or.inl ⟨rfl, ?_⟩⟩
          · rw [List.filterMap_append, hclose]
          · rw [← hop]
            exact List.mem_map_of_mem (List.mem_of_getElem? hi)

theorem closes_obey {tr : List (World × Action)}
    (h : Run (Step errorFromHttp3 Q) new tr w) :
    Obeys (tr.filterMap fun p => p.2.asked?) (w.log.filterMap Event.close?) :=
  obeys_of_run closesAsAsked h (by simp [World.Exits, new, OneCall.ops]) rfl

end Closes

end Session

/-! ## The endpoint of a server -/

namespace Server

/-- The close that a call asks for, unless its code is refused. -/
def Action.asked? : Action → Option (UInt64 × String)
  | .close code reason => if code.toNat < 2 ^ 62 then some (code, reason) else none
  | .call .aexit => some (0, "")
  | _ => none

def Event.close? : Event → Option (UInt64 × List UInt8)
  | .close code reason => some (code, reason)
  | _ => none

section Closes

variable {Q : Answers Event} {w w' : World} {l : Action}

theorem close?_eq_nil {i : ℕ} {lock lock' : FifoLock ℕ} {op : Op} {pc pc' : Pc}
    {ans : Option Event} (h : TaskMove i lock op pc ans pc' lock') :
    ans.toList.filterMap Event.close? = [] := by
  cases h <;> rfl

/-- The exit of a server closes the endpoint in its call. -/
theorem closesAsAsked :
    ClosesAsAsked (Step Q) Action.asked? (fun _ _ => False)
      fun w => w.log.filterMap Event.close? where
  due _ hx := hx.elim
  made := by
    intro w l w' h
    cases h.move with
    | call | refused | drop => exact Or.inl rfl
    | exit => exact Or.inr ⟨0, "", List.filterMap_append, Or.inr rfl⟩
    | close code reason hcode =>
        exact Or.inr ⟨code, reason, List.filterMap_append, Or.inr (if_pos hcode)⟩
    | task i ans hi hm =>
        left
        rw [List.filterMap_append, close?_eq_nil hm, List.append_nil]

theorem log_isPrefix (h : Step Q w l w') : w.log <+: w'.log := by
  cases h.move with
  | call | refused | drop => exact List.prefix_rfl
  | exit | close | task => exact List.prefix_append _ _

theorem closes_obey {tr : List (World × Action)} (h : Run (Step Q) new tr w) :
    Obeys (tr.filterMap fun p => p.2.asked?) (w.log.filterMap Event.close?) :=
  obeys_of_run closesAsAsked h (fun _ => id) rfl

end Closes

end Server

/-! ## The endpoint of a client -/

namespace Client

def Action.asked? {Url : Type} : Action Url → Option (UInt64 × String)
  | .close code reason => if code.toNat < 2 ^ 62 then some (code, reason) else none
  | .call .aexit => some (0, "")
  | _ => none

def Event.close? {Url : Type} : Event Url → Option (UInt64 × List UInt8)
  | .close code reason => some (code, reason)
  | _ => none

def World.Exits {Url : Type} (w : World Url) (x : UInt64 × String) : Prop :=
  x = (0, "") ∧ Op.aexit ∈ OneCall.ops w.tasks

section Closes

variable {Url : Type} [DecidableEq Url] {parse : String → Except String Url}
  {Q : Answers (Event Url)} {w w' : World Url} {l : Action Url}

theorem close?_cases {op : Op Url} {pc pc' : Pc} {ans : Option (Event Url)}
    (h : oneCall.TaskMove op pc ans pc') :
    ans.toList.filterMap Event.close? = [] ∨
      op = .aexit ∧ ans.toList.filterMap Event.close? = [(0, asBytes "")] := by
  cases h with
  | returns => exact Or.inl rfl
  | calls e hop =>
      obtain ⟨rfl, rfl⟩ := first_eq_calls hop
      exact Or.inr ⟨rfl, rfl⟩
  | polls pc e r hpc hfirst hr =>
      left
      cases e with
      | connect | waitIdle => rfl
      | close code reason => cases op <;> cases hr

theorem closesAsAsked :
    ClosesAsAsked (Step parse Q) Action.asked? World.Exits
      fun w => w.log.filterMap Event.close? where
  due := by
    rintro w l w' x h ⟨rfl, hmem⟩
    cases h.move with
    | call c op hop =>
        rw [OneCall.ops, List.map_append] at hmem
        rcases List.mem_append.mp hmem with hold | hnew
        · exact Or.inl ⟨rfl, hold⟩
        · cases List.mem_singleton.mp hnew
          obtain rfl := start_eq_aexit hop
          exact Or.inr rfl
    | noUrl | close | refused => exact Or.inl ⟨rfl, hmem⟩
    | task i ans hi | drop i hi =>
        exact Or.inl ⟨rfl, by simpa only [OneCall.ops_set hi] using hmem⟩
  made := by
    intro w l w' h
    cases h.move with
    | call | noUrl | refused | drop => exact Or.inl rfl
    | close code reason hcode =>
        exact Or.inr ⟨code, reason, List.filterMap_append, Or.inr (if_pos hcode)⟩
    | task i ans hi hm =>
        rcases close?_cases hm with hnone | ⟨hop, hclose⟩
        · left
          rw [List.filterMap_append, hnone, List.append_nil]
        · refine Or.inr ⟨0, "", ?_, Or.inl ⟨rfl, ?_⟩⟩
          · rw [List.filterMap_append, hclose]
          · rw [← hop]
            exact List.mem_map_of_mem (List.mem_of_getElem? hi)

theorem log_isPrefix (h : Step parse Q w l w') : w.log <+: w'.log := by
  cases h.move with
  | call | noUrl | refused | drop => exact List.prefix_rfl
  | close | task => exact List.prefix_append _ _

theorem closes_obey {tr : List (World Url × Action Url)}
    (h : Run (Step parse Q) new tr w) :
    Obeys (tr.filterMap fun p => p.2.asked?) (w.log.filterMap Event.close?) :=
  obeys_of_run closesAsAsked h (by simp [World.Exits, new, OneCall.ops]) rfl

end Closes

end Client

end WebTransport
