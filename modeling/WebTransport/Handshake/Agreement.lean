import WebTransport.Handshake.Decision

/-!
# Client and server agree on the outcome

The client has a session only if the server accepted its request, and a
rejection that arrives is reported with its status.  Both hold for every
sequence of calls on the server and every order of steps, unless the request is
rejected with the status `200`, which the client takes for an acceptance.
-/

namespace WebTransport.Handshake

open Support

variable {errorFromHttp3 : ErrorFromHttp3} {http : Http} {w w' : World http}
  {l : Action} {request : Request} {tr : List (World http × Action)}
  {f : Future http.Status} {i : ℕ} {s : UInt16}

def World.responses (w : World http) : List (Response http.Status) :=
  w.futures.map Future.response

/-- The client has a session only if `accept` has been called, and when the
response of a `reject(s)` that passed its validation has arrived, `connect` has
raised `SessionRejected` with the status `s`. -/
structure Agrees (w : World http) : Prop where
  session : w.client = .session → .accept ∈ w.calls
  rejected : ∀ s status, http.fromU16 s = .ok status →
    .respond status ∈ w.responses → w.delivered = some s →
    ∃ msg, w.client = .raised (.sessionRejected msg s)

theorem connected_success : connected http 200 = .session := by
  rw [connected, http.received_success]

theorem connected_other (hs : s ≠ 200) :
    ∃ msg, connected http s = .raised (.sessionRejected msg s) := by
  obtain ⟨display, hreceived⟩ := http.received_other hs
  exact ⟨display, by rw [connected, hreceived]; rfl⟩

theorem connected_eq_session : connected http s = .session ↔ s = 200 := by
  constructor
  · intro h
    by_contra hs
    obtain ⟨msg, hraised⟩ : ∃ msg, connected http s =
        .raised (.sessionRejected msg s) := connected_other hs
    rw [hraised] at h
    cases h
  · rintro rfl
    exact connected_success

/-! ## Whose response arrives -/

/-- The response that the first call asks for. -/
def Asks (http : Http) (calls : List Call) : Response http.Status → Prop
  | .ok => calls.head? = some .accept
  | .respond status => ∃ s, calls.head? = some (.reject s) ∧
      http.fromU16 s = .ok status

/-- Every response stems from the first call, and what is in flight or has
arrived is the status of a response. -/
structure Linked (w : World http) : Prop where
  asks : ∀ r ∈ w.responses, Asks http w.calls r
  inFlight : ∀ s, w.inFlight = some s → ∃ r ∈ w.responses, r.status http = s
  delivered : ∀ s, w.delivered = some s →
    (∃ r ∈ w.responses, r.status http = s) ∧ w.client = connected http s
  session : w.client = .session → ∃ s, w.delivered = some s

theorem linked_start (http : Http) (request : Request) :
    Linked (start http request) where
  asks r hr := by cases hr
  inFlight s hs := by cases hs
  delivered s hs := by cases hs
  session h := by cases h

theorem asks_append {calls : List Call} {c : Call} {r : Response http.Status}
    (h : Asks http calls r) : Asks http (calls ++ [c]) r := by
  cases calls with
  | nil =>
      cases r with
      | ok => cases h
      | respond status =>
          obtain ⟨s, hs, -⟩ := h
          cases hs
  | cons first rest => cases r <;> exact h

theorem responses_set (hi : w.futures[i]? = some f) (pc : FuturePc) :
    (w.futures.set i { f with pc := pc }).map Future.response = w.responses := by
  rw [World.responses, List.map_set]
  apply List.ext_getElem?
  intro j
  by_cases hij : i = j
  · subst hij
    simp [List.getElem?_set_self', hi]
  · rw [List.getElem?_set_ne hij]

theorem Linked.call (hw : Linked w) (c : Call) (r : SessionRequest)
    {futures : List (Future http.Status)}
    (hasks : ∀ f ∈ futures, Asks http (w.calls ++ [c]) f.response) :
    Linked { w with
      calls := w.calls ++ [c], request := r, futures := w.futures ++ futures } := by
  have hresponses : ∀ {s}, (∃ r ∈ w.responses, r.status http = s) →
      ∃ r ∈ (w.futures ++ futures).map Future.response, r.status http = s := by
    rintro s ⟨r, hr, hs⟩
    refine ⟨r, ?_, hs⟩
    rw [List.map_append]
    exact List.mem_append_left _ hr
  refine ⟨?_, fun s hs => hresponses (hw.inFlight s hs), ?_, hw.session⟩
  · intro r hr
    rw [World.responses, List.map_append, List.mem_append] at hr
    rcases hr with hr | hr
    · exact asks_append (hw.asks r hr)
    · obtain ⟨f, hf, rfl⟩ := List.mem_map.mp hr
      exact hasks f hf
  · intro s hs
    obtain ⟨hsome, hclient⟩ := hw.delivered s hs
    exact ⟨hresponses hsome, hclient⟩

theorem Linked.proceed (hw : Linked w) (hi : w.futures[i]? = some f)
    (pc : FuturePc) :
    Linked { w with futures := w.futures.set i { f with pc := pc } } := by
  have hsame : World.responses
      { w with futures := w.futures.set i { f with pc := pc } } = w.responses :=
    responses_set hi pc
  refine ⟨?_, ?_, ?_, hw.session⟩
  · rw [hsame]
    exact hw.asks
  · rw [hsame]
    exact hw.inFlight
  · rw [hsame]
    exact hw.delivered

theorem linked_step
    (hfirst : ∀ request, w.request.inner = some request → w.calls = [])
    (h : Step errorFromHttp3 http w l w') (hw : Linked w) : Linked w' := by
  cases h.move with
  | refused c hd =>
      have hnone : ∀ f ∈ ([] : List (Future http.Status)),
          Asks http (w.calls ++ [c]) f.response := by simp
      simpa using hw.call c w.request hnone
  | invalid s request hu hv =>
      have hnone : ∀ f ∈ ([] : List (Future http.Status)),
          Asks http (w.calls ++ [.reject s]) f.response := by simp
      simpa using hw.call (.reject s) { w.request with inner := none } hnone
  | accepts request hu =>
      refine hw.call .accept _ fun f hf => ?_
      obtain rfl := List.mem_singleton.mp hf
      rw [hfirst request hu]
      rfl
  | rejects s status request hu hv =>
      refine hw.call (.reject s) _ fun f hf => ?_
      obtain rfl := List.mem_singleton.mp hf
      rw [hfirst request hu]
      exact ⟨s, rfl, hv⟩
  | sends i f hi hpc =>
      have hmoved := hw.proceed hi .sent
      refine ⟨hmoved.asks, ?_, hmoved.delivered, hmoved.session⟩
      intro s hs
      cases hs
      have hmem : f.response ∈ w.responses :=
        List.mem_map_of_mem (List.mem_of_getElem? hi)
      refine ⟨f.response, ?_, rfl⟩
      rw [← responses_set hi .sent] at hmem
      exact hmem
  | proceeds _ i f pc hi hl hpc => exact hw.proceed hi pc
  | arrives s hs hc =>
      refine ⟨hw.asks, ?_, ?_, fun _ => ⟨s, rfl⟩⟩
      · intro s' hs'
        cases hs'
      · intro s' hs'
        cases hs'
        exact ⟨hw.inFlight s hs, rfl⟩
  | fails e he hc =>
      refine ⟨hw.asks, hw.inFlight, ?_, ?_⟩
      · -- nothing has arrived while the client still waits
        intro s hs
        obtain ⟨-, hclient⟩ := hw.delivered s hs
        rw [hc, connected] at hclient
        split at hclient <;> cases hclient
      · intro hsession
        cases hsession

theorem linked_of_reachable
    (h : Reachable (Step errorFromHttp3 http) (start http request) w) : Linked w := by
  have hboth : Taken w ∧ Linked w := by
    refine h.invariant (I := fun w => Taken w ∧ Linked w) ?_
      ⟨taken_start http request, linked_start http request⟩
    rintro w l w' hstep ⟨htaken, hw⟩
    refine ⟨taken_step hstep htaken, linked_step ?_ hstep hw⟩
    exact fun request hu => htaken.undecided.mpr ⟨request, hu⟩
  exact hboth.2

/-! ## Exactly the sequences of calls with agreement -/

/-- As long as the first call is not `reject(200)`, client and server agree. -/
theorem Linked.agrees (hw : Linked w)
    (hfirst : w.calls.head? ≠ some (.reject 200)) : Agrees w where
  session hsession := by
    obtain ⟨s, hs⟩ := hw.session hsession
    obtain ⟨⟨r, hr, hstatus⟩, hclient⟩ := hw.delivered s hs
    obtain rfl : s = 200 := connected_eq_session.mp (hclient.symm.trans hsession)
    have hasks := hw.asks r hr
    cases r with
    | ok => exact List.mem_of_mem_head? hasks
    | respond status =>
        obtain ⟨s', hhead, hvalid⟩ := hasks
        have hs' : s' = 200 := by
          rw [← http.asU16_of_fromU16 hvalid]
          exact hstatus
        exact absurd (hs' ▸ hhead) hfirst
  rejected s status hvalid hr hs := by
    obtain ⟨s', hhead, hvalid'⟩ := hw.asks _ hr
    have hsame : s' = s := by
      rw [← http.asU16_of_fromU16 hvalid', http.asU16_of_fromU16 hvalid]
    have hother : s ≠ 200 := by
      rintro rfl
      exact hfirst (hsame ▸ hhead)
    rw [(hw.delivered s hs).2]
    exact connected_other hother

theorem calls_isPrefix (h : Step errorFromHttp3 http w l w') :
    w.calls <+: w'.calls := by
  cases h.move with
  | refused | invalid | accepts | rejects => exact List.prefix_append _ _
  | _ => exact List.prefix_rfl

theorem head?_ne_of_isPrefix {calls calls' : List Call} {c : Call}
    (h : calls <+: calls') (hne : calls'.head? ≠ some c) : calls.head? ≠ some c := by
  obtain ⟨rest, rfl⟩ := h
  cases calls with
  | nil => simp
  | cons first rest' => exact hne

theorem run_of_calls (errorFromHttp3 : ErrorFromHttp3) (calls : List Call)
    (w : World http) :
    ∃ tr w', Run (Step errorFromHttp3 http) w tr w' ∧
      w'.calls = w.calls ++ calls := by
  induction calls generalizing w with
  | nil => exact ⟨[], w, Run.refl, (List.append_nil _).symm⟩
  | cons c rest ih =>
      obtain ⟨w₁, hnext, hcalls⟩ :
          ∃ w₁, Step errorFromHttp3 http w (.call c) w₁ ∧
            w₁.calls = w.calls ++ [c] := ⟨_, rfl, rfl⟩
      obtain ⟨tr, w', hrun, hrest⟩ := ih w₁
      refine ⟨_, w', hrun.head hnext, ?_⟩
      rw [hrest, hcalls, List.append_assoc, List.singleton_append]

/-- A client can get its session from `reject(200)`. -/
theorem session_of_reject_200 (errorFromHttp3 : ErrorFromHttp3) (http : Http)
    (request : Request) :
    ∃ tr w, Run (Step errorFromHttp3 http) (start http request) tr w ∧
      w.calls = [.reject 200] ∧ w.client = .session := by
  obtain ⟨status, hvalid⟩ := http.fromU16_success
  have hstatus : http.asU16 status = 200 := http.asU16_of_fromU16 hvalid
  obtain ⟨w₁, hcall, hcalls₁, hfutures₁, hclient₁⟩ : ∃ w₁ : World http,
      Step errorFromHttp3 http (start http request) (.call (.reject 200)) w₁ ∧
      w₁.calls = [.reject 200] ∧ w₁.futures = [⟨.respond status, .spawned⟩] ∧
      w₁.client = .connecting := by
    refine ⟨_, rfl, rfl, ?_, rfl⟩
    simp [start, SessionRequest.new, hvalid, Except.toOption]
  obtain ⟨w₂, hsend, hcalls₂, hflight₂, hclient₂⟩ : ∃ w₂ : World http,
      Step errorFromHttp3 http w₁ (.send 0) w₂ ∧ w₂.calls = [.reject 200] ∧
      w₂.inFlight = some 200 ∧ w₂.client = .connecting := by
    refine ⟨{ w₁ with
      futures := [⟨.respond status, .sent⟩], issued := w₁.issued ++ [200],
      inFlight := some 200 }, ?_, hcalls₁, rfl, hclient₁⟩
    simp [Step, next, hfutures₁, Response.status, hstatus]
  obtain ⟨w₃, hdeliver, hcalls₃, hclient₃⟩ : ∃ w₃ : World http,
      Step errorFromHttp3 http w₂ .deliver w₃ ∧ w₃.calls = [.reject 200] ∧
      w₃.client = .session := by
    refine ⟨{ w₂ with inFlight := none, delivered := some 200, client := .session },
      ?_, hcalls₂, rfl⟩
    simp [Step, next, hclient₂, hflight₂, connected_success]
  have hrun := ((Run.single hcall).tail hsend).tail hdeliver
  exact ⟨_, w₃, hrun, hcalls₃, hclient₃⟩

/-- Client and server agree, in all states of all runs with the given calls on
the request, exactly if the first call is not `reject(200)`. -/
theorem agrees_iff (errorFromHttp3 : ErrorFromHttp3) (http : Http)
    (request : Request) (calls : List Call) :
    (∀ {tr w}, Run (Step errorFromHttp3 http) (start http request) tr w →
      w.calls = calls → Along (fun u _ => Agrees u) tr ∧ Agrees w) ↔
    calls.head? ≠ some (.reject 200) := by
  constructor
  · intro hall hhead
    obtain ⟨rest, rfl⟩ := List.head?_eq_some_iff.mp hhead
    obtain ⟨tr, w, hrun, hcalls, hsession⟩ :=
      session_of_reject_200 errorFromHttp3 http request
    obtain ⟨tr', w', hrun', hcalls'⟩ := run_of_calls errorFromHttp3 rest w
    obtain ⟨hbefore, hlast⟩ := hall (hrun.trans hrun') (by rw [hcalls', hcalls]; rfl)
    rw [along_append] at hbefore
    have hagrees : Agrees w := hrun'.first hbefore.2 hlast
    have hmem := hagrees.session hsession
    simp [hcalls] at hmem
  · rintro hfirst tr w hrun rfl
    induction hrun with
    | refl => exact ⟨along_nil, (linked_start http request).agrees (by simp [start])⟩
    | tail hrun hstep ih =>
        have hbefore := ih (head?_ne_of_isPrefix (calls_isPrefix hstep) hfirst)
        rw [along_append, along_singleton]
        have hlinked : Linked _ := linked_of_reachable (hrun.tail hstep).reachable
        exact ⟨hbefore, hlinked.agrees hfirst⟩

/-- `reject(404)` reaches the client as a rejection with that status. -/
theorem reject_404_agrees :
    ∃ msg, (after [.call (.reject 404), .send 0, .deliver]).client =
      .raised (.sessionRejected msg 404) := by
  have hagrees : Agrees (after [.call (.reject 404), .send 0, .deliver]) :=
    ((agrees_iff noCodes httpCodes ⟨"https://localhost/"⟩ [.reject 404]).mpr
      (by simp) (run_after _ (by decide)) rfl).2
  exact hagrees.rejected 404 ⟨404, by decide⟩ rfl (List.mem_singleton_self _) rfl

/-- After `reject(200)` the client holds a session that nobody has accepted. -/
theorem reject_200_not_agrees :
    ¬ ∀ {tr : List (World httpCodes × Action)} {w : World httpCodes},
      Run (Step noCodes httpCodes) (start httpCodes ⟨"https://localhost/"⟩) tr w →
        Agrees w := by
  intro h
  have hagrees := h (run_after [.call (.reject 200), .send 0, .deliver] (by decide))
  have hmem : Call.accept ∈ [Call.reject 200] := hagrees.session rfl
  simp at hmem

end WebTransport.Handshake
