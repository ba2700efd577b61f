import WebTransport.Handshake.Model

/-!
# A session request is decided once

`accept` and `reject` share one request, and whoever takes it first decides.
But `reject` takes it before it looks at the status: a status that is not valid
uses the request up without a decision.
-/

namespace WebTransport.Handshake

open Support

variable {errorFromHttp3 : ErrorFromHttp3} {http : Http} {w w' : World http}
  {l : Action} {request : Request} {tr : List (World http × Action)}
  {f : Future http.Status} {i : ℕ}

/-- A call decides nothing when it is refused: once the request is with the
future of an earlier call, the call raises `SessionError` and changes nothing,
and a call that raises `ValueError` leaves the request as it was. -/
def OneDecision (w : World http) : Action → Prop
  | .call c =>
      (w.futures ≠ [] →
        w.request.call http c = (w.request, .error alreadyDecided)) ∧
      ∀ msg, (w.request.call http c).2 = .error (.valueError msg) →
        (w.request.call http c).1 = w.request
  | _ => True

/-- At most one response is issued, and every refused call decides nothing. -/
def DecidedOnce (tr : List (World http × Action)) (w : World http) : Prop :=
  w.issued.length ≤ 1 ∧ Along OneDecision tr

/-- The first call is not a `reject` with a status that is not valid. -/
def FirstValid (http : Http) (calls : List Call) : Prop :=
  ∀ s, calls.head? = some (.reject s) → http.Valid s

/-! ## Who has the request -/

/-- The request is in the `SessionRequest` until the first call, and then in the
one future there is, unless it is lost. -/
structure Taken (w : World http) : Prop where
  undecided : w.calls = [] ↔ ∃ request, w.request.inner = some request
  unused : w.calls = [] → w.futures = []
  single : w.futures.length ≤ 1
  unsent : w.futures = [] ∨ (∃ f ∈ w.futures, f.pc = .spawned) → w.issued = []
  issued : w.issued.length ≤ 1

theorem eq_singleton_of_getElem? {l : List (Future http.Status)}
    (hl : l.length ≤ 1) (hi : l[i]? = some f) : l = [f] ∧ i = 0 := by
  have hlt : i < l.length := lt_length_of_getElem? hi
  obtain rfl : i = 0 := by omega
  obtain ⟨a, rfl⟩ : ∃ a, l = [a] := List.length_eq_one_iff.mp (by omega)
  obtain rfl : a = f := by simpa using hi
  exact ⟨rfl, rfl⟩

theorem taken_start (http : Http) (request : Request) :
    Taken (start http request) where
  undecided := ⟨fun _ => ⟨request, rfl⟩, fun _ => rfl⟩
  unused _ := rfl
  single := Nat.zero_le 1
  unsent _ := rfl
  issued := Nat.zero_le 1

theorem Taken.take (hw : Taken w) (hu : w.request.inner = some request) (c : Call)
    {futures : List (Future http.Status)} (hfutures : futures.length ≤ 1) :
    Taken { w with
      calls := w.calls ++ [c]
      request := { w.request with inner := none }
      futures := w.futures ++ futures } := by
  have hcalls : w.calls = [] := hw.undecided.mpr ⟨request, hu⟩
  have hnil : w.futures = [] := hw.unused hcalls
  have hissued : w.issued = [] := hw.unsent (Or.inl hnil)
  refine ⟨?_, ?_, ?_, fun _ => hissued, hw.issued⟩
  · simp
  · simp
  · simpa [hnil] using hfutures

theorem Taken.proceed (hw : Taken w) (hi : w.futures[i]? = some f) {pc : FuturePc}
    (hpc : pc ≠ .spawned) :
    Taken { w with futures := w.futures.set i { f with pc := pc } } := by
  obtain ⟨hsingle, rfl⟩ := eq_singleton_of_getElem? hw.single hi
  refine ⟨hw.undecided, ?_, ?_, ?_, hw.issued⟩
  · intro hcalls
    rw [hw.unused hcalls] at hsingle
    cases hsingle
  · simpa using hw.single
  · simp [hsingle, hpc]

theorem taken_step (h : Step errorFromHttp3 http w l w') (hw : Taken w) :
    Taken w' := by
  cases h.move with
  | refused c hd =>
      have hcalls : w.calls ≠ [] := by
        intro hnil
        obtain ⟨request, hu⟩ := hw.undecided.mp hnil
        rw [hd] at hu
        cases hu
      exact ⟨by simp [hd], by simp, hw.single, hw.unsent, hw.issued⟩
  | invalid s request hu hv =>
      have hnone : ([] : List (Future http.Status)).length ≤ 1 := Nat.zero_le 1
      simpa using hw.take hu (.reject s) hnone
  | accepts request hu => exact hw.take hu _ (Nat.le_refl 1)
  | rejects s status request hu hv => exact hw.take hu _ (Nat.le_refl 1)
  | sends i f hi hpc =>
      have hissued : w.issued = [] :=
        hw.unsent (Or.inr ⟨f, List.mem_of_getElem? hi, hpc⟩)
      have hmoved := hw.proceed hi (show FuturePc.sent ≠ .spawned by simp)
      refine ⟨hmoved.undecided, hmoved.unused, hmoved.single, fun hnone => ?_, ?_⟩
      · obtain ⟨hsingle, rfl⟩ := eq_singleton_of_getElem? hw.single hi
        simp [hsingle] at hnone
      · simp [hissued]
  | proceeds _ i f pc hi hl hpc => exact hw.proceed hi hpc
  | arrives | fails =>
      exact ⟨hw.undecided, hw.unused, hw.single, hw.unsent, hw.issued⟩

theorem taken_of_reachable
    (h : Reachable (Step errorFromHttp3 http) (start http request) w) : Taken w :=
  h.invariant (fun _ _ _ => taken_step) (taken_start http request)

/-! ## Exactly the sequences of calls that decide once -/

theorem call_refused (hd : w.request.inner = none) (c : Call) :
    w.request.call http c = (w.request, .error alreadyDecided) := by
  cases c <;>
    simp [SessionRequest.call, SessionRequest.accept, SessionRequest.reject, hd]

theorem firstValid_append {calls : List Call} {c : Call} (hcalls : calls ≠ []) :
    FirstValid http (calls ++ [c]) ↔ FirstValid http calls := by
  rw [FirstValid, FirstValid, List.head?_append_of_ne_nil _ hcalls]

/-- The first call keeps to one decision exactly if it is not a `reject` with a
status that is not valid. -/
theorem oneDecision_first (hu : w.request.inner = some request)
    (hnil : w.futures = []) (c : Call) :
    OneDecision w (.call c) ↔ FirstValid http [c] := by
  cases c with
  | accept =>
      simp [OneDecision, FirstValid, SessionRequest.call, SessionRequest.accept, hu,
        hnil]
  | reject s =>
      have hgood : FirstValid http [.reject s] ↔ http.Valid s := by
        simp [FirstValid]
      rw [hgood]
      cases hs : http.fromU16 s with
      | ok status =>
          have hvalid : http.Valid s := ⟨status, hs⟩
          simp [OneDecision, SessionRequest.call, SessionRequest.reject, hu, hnil,
            hs, hvalid]
      | error e =>
          have hinvalid : ¬ http.Valid s := by
            rintro ⟨status, hok⟩
            rw [hs] at hok
            cases hok
          -- the request is gone, but there was one
          have hgone : ({ w.request with inner := none } : SessionRequest) ≠
              w.request := by
            intro heq
            rw [← heq] at hu
            cases hu
          simpa [OneDecision, SessionRequest.call, SessionRequest.reject, hu, hnil,
            hs, hinvalid] using hgone

theorem oneDecision_iff (hw : Taken w) (h : Step errorFromHttp3 http w l w') :
    FirstValid http w'.calls ↔ FirstValid http w.calls ∧ OneDecision w l := by
  have hcall : ∀ {c}, l = .call c → w'.calls = w.calls ++ [c] →
      (FirstValid http w'.calls ↔ FirstValid http w.calls ∧ OneDecision w l) := by
    rintro c rfl hcalls
    rw [hcalls]
    by_cases hnil : w.calls = []
    · obtain ⟨request, hu⟩ := hw.undecided.mp hnil
      rw [oneDecision_first hu (hw.unused hnil), hnil]
      simp [FirstValid]
    · have hd : w.request.inner = none := by
        by_contra hsome
        exact hnil (hw.undecided.mpr (Option.ne_none_iff_exists'.mp hsome))
      have hone : OneDecision w (.call c) := by
        refine ⟨fun _ => call_refused hd c, fun msg hmsg => ?_⟩
        rw [call_refused hd c]
      simp [firstValid_append hnil, hone]
  have hother : (∀ c, l ≠ .call c) → w'.calls = w.calls →
      (FirstValid http w'.calls ↔ FirstValid http w.calls ∧ OneDecision w l) := by
    intro hl hcalls
    have hone : OneDecision w l := by
      cases l with
      | call c => exact absurd rfl (hl c)
      | _ => trivial
    simp [hcalls, hone]
  cases h.move with
  | refused c hd => exact hcall rfl rfl
  | invalid => exact hcall rfl rfl
  | accepts => exact hcall rfl rfl
  | rejects => exact hcall rfl rfl
  | proceeds _ i f pc hi hl hpc => exact hother hl rfl
  | sends | arrives | fails => exact hother (by simp) rfl

/-- A session request is decided once in exactly the runs whose first call is
not a `reject` with a status that is not valid. -/
theorem decidedOnce_iff
    (h : Run (Step errorFromHttp3 http) (start http request) tr w) :
    DecidedOnce tr w ↔ FirstValid http w.calls := by
  have hissued : w.issued.length ≤ 1 := (taken_of_reachable h.reachable).issued
  rw [DecidedOnce, and_iff_right hissued]
  clear hissued
  induction h with
  | refl => simp [start, FirstValid]
  | tail hrun hstep ih =>
      rw [along_append, along_singleton,
        oneDecision_iff (taken_of_reachable hrun.reachable) hstep]
      exact and_congr_left fun _ => ih

/-- `reject(404)` decides, and a late `accept` does not. -/
theorem reject_accept_decidedOnce :
    (after [.call (.reject 404), .send 0, .call .accept,
      .answer 0 (.ok ())]).issued.length ≤ 1 := by
  have hrun := run_after [.call (.reject 404), .send 0, .call .accept,
    .answer 0 (.ok ())] (by decide)
  have hfirst : FirstValid httpCodes [.reject 404, .accept] := by
    intro s hs
    obtain rfl : 404 = s := by simpa using hs
    exact ⟨⟨404, by decide⟩, rfl⟩
  exact ((decidedOnce_iff hrun).mpr hfirst).1

/-- `reject(99)` raises `ValueError` and uses the request up, so that the
`accept` after it has no effect. -/
theorem invalid_reject_not_decidedOnce :
    ¬ ∀ {tr : List (World httpCodes × Action)} {w : World httpCodes},
      Run (Step noCodes httpCodes) (start httpCodes ⟨"https://localhost/"⟩) tr w →
        DecidedOnce tr w := by
  intro h
  have hrun := run_after [.call (.reject 99), .call .accept] (by decide)
  obtain ⟨status, hvalid⟩ := (decidedOnce_iff hrun).mp (h hrun) 99 rfl
  cases hvalid

end WebTransport.Handshake
