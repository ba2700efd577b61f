import WebTransport.Handshake.Agreement
import WebTransport.Server.Handout

/-!
# Many clients at one server

The server hands out one session request after the other, and each of them is the
beginning of a connection attempt of its own: a `SessionRequest` that is accepted or
rejected, and a client that waits for the outcome.  All of them run side by side.
Python gets at a `SessionRequest` only through the task that was handed the request,
and what happens to one attempt does not depend on the others.
-/

namespace WebTransport.Server

open Support Wrapper Handshake

variable {http : Http}

/-! ## The system -/

/-- The session requests that the QUIC server has yielded, with the tasks that they
were handed to. -/
def handed (w : World) : List (ℕ × Request) :=
  (w.answered.zip (yielded w.log)).filterMap fun p => p.2.map fun request =>
    (p.1, request)

def Action.hands : Action → Option (ℕ × Request)
  | .task i (some (.accept (.ready (some request)))) => some (i, request)
  | _ => none

/-- The task has returned. -/
def World.returned (w : World) (i : ℕ) : Bool :=
  (w.tasks[i]?).any fun t =>
    match t.pc with
    | .done _ => true
    | _ => false

/-- A server with the attempts that it knows of, one for each session request. -/
structure Site (http : Http) where
  server : World
  attempts : List (Handshake.World http)

inductive Site.Action
  | server (l : Server.Action)
  | attempt (k : ℕ) (l : Handshake.Action)

namespace Site

def new (http : Http) : Site http where
  server := Server.new
  attempts := []

/-- Python has the `SessionRequest` of the attempt. -/
def known (s : Site http) (k : ℕ) : Bool :=
  ((handed s.server)[k]?).any fun p => s.server.returned p.1

def isCall : Handshake.Action → Bool
  | .call _ => true
  | _ => false

/-- The state after a step, if the step can be taken. -/
def next (errorFromHttp3 : ErrorFromHttp3) (s : Site http) :
    Site.Action → Option (Site http)
  | .server l => (Server.next s.server l).map fun w =>
      { server := w
        attempts := s.attempts ++ (l.hands.map fun p => start http p.2).toList }
  | .attempt k l => s.attempts[k]?.bind fun a =>
      if isCall l && !s.known k then none
      else (Handshake.next errorFromHttp3 http a l).map fun a' =>
        { s with attempts := s.attempts.set k a' }

def Step (errorFromHttp3 : ErrorFromHttp3) (Q : Answers Event) (s : Site http)
    (l : Site.Action) (s' : Site http) : Prop :=
  next errorFromHttp3 s l = some s' ∧
    ∀ l', l = .server l' → ∀ e ∈ l'.answer, Q s.server.log e

end Site

/-! ## What is handed out -/

section Handed

variable {Q : Answers Event} {w w' : World} {l : Action} {i k : ℕ} {request : Request}

theorem handed_of_step (hw : Handed w) (h : Step Q w l w') :
    handed w' = handed w ++ l.hands.toList := by
  have hlength : w.answered.length = (yielded w.log).length := hw.gets.length_eq
  have hsame : w'.answered = w.answered → yielded w'.log = yielded w.log →
      l.hands = none → handed w' = handed w ++ l.hands.toList := by
    intro hanswered hyielded hnone
    rw [handed, hanswered, hyielded, hnone, Option.toList_none, List.append_nil, handed]
  cases h.move with
  | call | refused | drop => exact hsame rfl rfl rfl
  | exit | close =>
      refine hsame rfl ?_ rfl
      rw [yielded_append]
      exact List.append_nil _
  | @task i ans t pc lock hi hm =>
      match ans with
      | none => simp [handed, Action.hands, isAnswer]
      | some (.accept (.ready a)) =>
          have hzip : (w.answered ++ [i]).zip (yielded w.log ++ [a]) =
              w.answered.zip (yielded w.log) ++ [(i, a)] := List.zip_append hlength
          change ((w.answered ++ [i]).zip (yielded (w.log ++ _))).filterMap _ = _
          rw [yielded_append]
          change ((w.answered ++ [i]).zip (yielded w.log ++ [a])).filterMap _ = _
          rw [hzip, List.filterMap_append]
          cases a <;> rfl
      | some (.accept .pending) | some (.close _ _) | some (.waitIdle _) =>
          refine hsame (List.append_nil _) ?_ rfl
          rw [yielded_append]
          exact List.append_nil _

theorem returned_iff :
    w.returned i = true ↔ ∃ t r, w.tasks[i]? = some t ∧ t.pc = .done r := by
  rw [World.returned, Option.any_eq_true]
  constructor
  · rintro ⟨t, ht, hpc⟩
    split at hpc
    · exact ⟨t, _, ht, by assumption⟩
    · cases hpc
  · rintro ⟨t, r, ht, hpc⟩
    exact ⟨t, ht, by rw [hpc]⟩

theorem TaskMove.not_done {op : Op} {pc pc' : Pc} {ans : Option Event}
    {lock lock' : FifoLock ℕ} (h : TaskMove i lock op pc ans pc' lock') (r : Ret) :
    pc ≠ .done r := by
  rintro rfl
  cases h with
  | pends _ _ _ hpc | receives _ _ _ _ hpc | idles _ _ _ _ hpc =>
      rcases hpc with hpc | hpc <;> cases hpc

theorem returned_step (h : Step Q w l w') (hi : w.returned i = true) :
    w'.returned i = true := by
  obtain ⟨t, r, ht, hpc⟩ := returned_iff.mp hi
  refine returned_iff.mpr ⟨t, r, ?_, hpc⟩
  cases h.move with
  | call | exit => exact getElem?_concat_of_eq_some ht
  | close | refused => exact ht
  | @task j ans u pc lock hj hm =>
      have hji : j ≠ i := by
        rintro rfl
        obtain rfl := Option.some.inj (ht.symm.trans hj)
        exact hm.not_done r hpc
      exact getElem?_set_of_ne hji ht
  | @drop j u hj hu =>
      have hji : j ≠ i := by
        rintro rfl
        obtain rfl := Option.some.inj (ht.symm.trans hj)
        rw [hpc] at hu
        rcases hu with hu | hu | hu <;> cases hu
      exact getElem?_set_of_ne hji ht

theorem returned_request (hw : Handed w) (hk : (handed w)[k]? = some (i, request))
    (hi : w.returned i = true) :
    ∃ t, w.tasks[i]? = some t ∧ t.pc = .done (.ok (.request (.new request))) := by
  obtain ⟨⟨j, a⟩, hmem, ha⟩ := List.mem_filterMap.mp (List.mem_of_getElem? hk)
  obtain ⟨request', rfl, heq⟩ := Option.map_eq_some_iff.mp ha
  obtain ⟨rfl, rfl⟩ := Prod.mk.inj heq
  obtain ⟨t, ht, hpc⟩ := (List.forall₂_iff_zip.mp hw.gets).2 hmem
  refine ⟨t, ht, ?_⟩
  rcases hpc with hpc | hpc
  · rw [World.returned, ht, Option.any_some, hpc] at hi
    cases hi
  · rw [hpc]
    cases t.op <;> rfl

theorem handed_nodup (h : w.answered.Nodup) : ((handed w).map Prod.fst).Nodup := by
  refine h.sublist ?_
  rw [handed]
  generalize w.answered = xs
  generalize yielded w.log = ys
  induction xs generalizing ys with
  | nil => simp
  | cons x xs ih =>
      cases ys with
      | nil => simp
      | cons a ys =>
          cases a with
          | none => exact (ih ys).cons x
          | some request => exact (ih ys).cons_cons x

end Handed

/-! ## Every attempt by itself -/

section Sited

variable {errorFromHttp3 : ErrorFromHttp3} {Q : Answers Event} {s s' : Site http}
  {l : Site.Action} {a a' : Handshake.World http} {k : ℕ}

theorem calls_of_step {l : Handshake.Action}
    (h : Handshake.Step errorFromHttp3 http a l a') (hl : Site.isCall l = false) :
    a'.calls = a.calls := by
  cases h.move with
  | refused | invalid | accepts | rejects => cases hl
  | _ => rfl

/-- Only the first call can make a session. -/
theorem head?_of_session (hw : Linked a) (h : a.client = .session) :
    a.calls.head? = some .accept ∨ a.calls.head? = some (.reject 200) := by
  obtain ⟨status, hstatus⟩ := hw.session h
  obtain ⟨⟨r, hr, hsent⟩, hclient⟩ := hw.delivered status hstatus
  obtain rfl : status = 200 := connected_eq_session.mp (hclient.symm.trans h)
  have hasks : Asks http a.calls r := hw.asks r hr
  cases r with
  | ok => exact Or.inl hasks
  | respond code =>
      obtain ⟨asked, hhead, hvalid⟩ := hasks
      have hasked : asked = 200 := by
        rw [← http.asU16_of_fromU16 hvalid]
        exact hsent
      exact Or.inr (hasked ▸ hhead)

/-- Each attempt is in a state that it can reach by itself, and calls are made on its
`SessionRequest` only when Python has it. -/
structure Sited (errorFromHttp3 : ErrorFromHttp3) (Q : Answers Event) (s : Site http) :
    Prop where
  server : Reachable (Step Q) Server.new s.server
  length : s.attempts.length = (handed s.server).length
  each : ∀ (k : ℕ) (a : Handshake.World http), s.attempts[k]? = some a →
    ∀ p : ℕ × Request, (handed s.server)[k]? = some p →
    Reachable (Handshake.Step errorFromHttp3 http) (start http p.2) a ∧
      (a.calls ≠ [] → s.server.returned p.1 = true)

theorem sited_step (h : Site.Step errorFromHttp3 Q s l s')
    (hs : Sited errorFromHttp3 Q s) : Sited errorFromHttp3 Q s' := by
  obtain ⟨hnext, hallowed⟩ := h
  cases l with
  | server l =>
      obtain ⟨w, hw, rfl⟩ := Option.map_eq_some_iff.mp hnext
      have hstep : Step Q s.server l w := ⟨hw, hallowed l rfl⟩
      have hhanded : handed w = handed s.server ++ l.hands.toList :=
        handed_of_step (handed_of_reachable hs.server) hstep
      refine ⟨hs.server.tail hstep, ?_, ?_⟩
      · rw [hhanded, List.length_append, List.length_append, hs.length, Option.toList_map,
          List.length_map]
      · rw [hhanded]
        cases l.hands with
        | none =>
            simp only [Option.map_none, Option.toList_none, List.append_nil]
            intro k a hk p hp
            obtain ⟨hreach, hcalls⟩ := hs.each k a hk p hp
            exact ⟨hreach, fun hne => returned_step hstep (hcalls hne)⟩
        | some q =>
            refine forall_getElem?_concat ?_ ?_
            · intro p hp
              rw [hs.length, Option.toList_some, List.getElem?_concat_length] at hp
              obtain rfl := Option.some.inj hp
              exact ⟨Reachable.refl, fun hne => absurd rfl hne⟩
            · intro k a hk p hp
              have hlt : k < (handed s.server).length :=
                hs.length ▸ lt_length_of_getElem? hk
              rw [List.getElem?_append_left hlt] at hp
              obtain ⟨hreach, hcalls⟩ := hs.each k a hk p hp
              exact ⟨hreach, fun hne => returned_step hstep (hcalls hne)⟩
  | attempt k l =>
      obtain ⟨a, hk, hrest⟩ := Option.bind_eq_some_iff.mp hnext
      split at hrest
      · cases hrest
      · rename_i hgate
        obtain ⟨a', ha', rfl⟩ := Option.map_eq_some_iff.mp hrest
        refine ⟨hs.server, by rw [List.length_set]; exact hs.length, ?_⟩
        refine forall_getElem?_set ?_ fun j b _ hj => hs.each j b hj
        intro p hp
        obtain ⟨hreach, hcalls⟩ := hs.each k a hk p hp
        refine ⟨hreach.tail ha', fun hne => ?_⟩
        cases hl : Site.isCall l with
        | false =>
            rw [calls_of_step ha' hl] at hne
            exact hcalls hne
        | true =>
            have hknown : s.known k = true := by simpa [hl] using hgate
            rw [Site.known, hp] at hknown
            exact hknown

/-- However many clients connect, and whatever becomes of the others, each attempt is
one of a single client; its request was handed to one task, which was handed no other
one; and where the client has a session, that task has returned the `SessionRequest`,
and the first call on it was an `accept`, or a rejection with the status `200`. -/
theorem attempts_stand_alone
    (h : Reachable (Site.Step errorFromHttp3 Q) (Site.new http) s)
    (hk : s.attempts[k]? = some a) :
    ∃ i request, (handed s.server)[k]? = some (i, request) ∧
      (∀ k' request', (handed s.server)[k']? = some (i, request') → k' = k) ∧
      Reachable (Handshake.Step errorFromHttp3 http) (start http request) a ∧
      (a.client = .session →
        (∃ t, s.server.tasks[i]? = some t ∧
          t.pc = .done (.ok (.request (.new request)))) ∧
        (a.calls.head? = some .accept ∨ a.calls.head? = some (.reject 200))) := by
  have hs : Sited errorFromHttp3 Q s := by
    refine h.invariant (fun _ _ _ hstep hu => sited_step hstep hu) ?_
    exact ⟨Reachable.refl, rfl, by simp [Site.new]⟩
  have hlt : k < (handed s.server).length := hs.length ▸ lt_length_of_getElem? hk
  obtain ⟨⟨i, request⟩, hp⟩ : ∃ p, (handed s.server)[k]? = some p :=
    ⟨_, List.getElem?_eq_getElem hlt⟩
  obtain ⟨hreach, hcalls⟩ := hs.each k a hk _ hp
  have hhanded := handed_of_reachable hs.server
  have hnodup : s.server.answered.Nodup :=
    (List.nodup_append.mp ((fair_of_reachable hs.server).nodup.sublist
      (fair_of_reachable hs.server).order)).1
  refine ⟨i, request, hp, ?_, hreach, ?_⟩
  · intro k' request' hk'
    exact eq_of_key_eq (handed_nodup hnodup) hk' hp rfl
  · intro hsession
    have hhead := head?_of_session (linked_of_reachable hreach) hsession
    refine ⟨returned_request hhanded hp (hcalls ?_), hhead⟩
    intro hnil
    rw [hnil] at hhead
    simp at hhead

end Sited

/-- Two tasks wait for a request.  The first one rejects what it gets, and the second
one accepts. -/
def twoClients : List Site.Action :=
  [.server (.call .accept), .server (.call .anext),
    .server (.task 0 none), .server (.task 1 none),
    .server (.task 0 (some (.accept (.ready (some ⟨"/a"⟩))))), .server (.task 0 none),
    .attempt 0 (.call (.reject 404)),
    .server (.task 1 none),
    .server (.task 1 (some (.accept (.ready (some ⟨"/b"⟩))))), .server (.task 1 none),
    .attempt 1 (.call .accept), .attempt 1 (.send 0), .attempt 0 (.send 0),
    .attempt 1 .deliver, .attempt 0 .deliver]

def bothServed : Site httpCodes :=
  replayEnd (Site.next noCodes) (Site.new httpCodes) twoClients

/-- The second client has a session, with the task that got its request. -/
theorem twoClients_stand_alone :
    ∃ i request, (handed bothServed.server)[1]? = some (i, request) ∧
      ∃ t, bothServed.server.tasks[i]? = some t ∧
        t.pc = .done (.ok (.request (.new request))) := by
  have hrun : Run (Site.Step noCodes fun _ _ => True) (Site.new httpCodes)
      (replayTrace (Site.next noCodes) (Site.new httpCodes) twoClients) bothServed :=
    run_replayEnd (fun _ _ _ h => ⟨h, fun _ _ _ _ => trivial⟩) (by decide)
  obtain ⟨a, ha, hsession⟩ : ∃ a, bothServed.attempts[1]? = some a ∧ a.client = .session :=
    ⟨_, rfl, by decide⟩
  obtain ⟨i, request, hp, -, -, hclient⟩ := attempts_stand_alone hrun.reachable ha
  exact ⟨i, request, hp, (hclient hsession).1⟩

end WebTransport.Server
