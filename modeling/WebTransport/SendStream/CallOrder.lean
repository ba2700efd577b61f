import Mathlib.Data.List.Sort
import WebTransport.SendStream.Contiguity
import WebTransport.Wrapper.Queue

/-!
# Writes in the order of the calls

A later call may be made before an earlier one has completed, and each is a task
of its own.  The mutex keeps the order in which the tasks ask for it; this module
proves that the bytes in front of the `FIN` are those of the calls, in order, when
that is also the order of the calls.
-/

namespace WebTransport.SendStream

open Support Wrapper

/-! ## Writes and one finisher -/

/-- The bytes that a call is given to send. -/
def callData : Call Op → List UInt8
  | .op op => op.data
  | .exit _ => []

def brings (c : Call Op) : Bool :=
  decide (callData c ≠ [])

def isFinisher : Call Op → Bool
  | .op .finish => true
  | .exit false => true
  | _ => false

/-- The runs in question: writes, then one `finish()` or clean exit, without a
`reset`, an exit on an exception or a cancelled task. -/
def InSequence (w : World) : Action Op Event Int32 → Prop
  | .call (.write _) | .call .finish | .exit false =>
      ∀ c ∈ w.calls, isFinisher c = false
  | .task _ _ | .python _ | .assign _ => True
  | _ => False

/-- The condition on a step: a write with data, or the finisher, asks for the
mutex only after every earlier write with data has asked for it. -/
def InTurn (w : World) : Action Op Event Int32 → Prop
  | .task i _ =>
      (w.tasks[i]?.any fun t =>
        t.asks && (brings t.called || isFinisher t.called)) = true →
      ∀ j < i, w.calls[j]?.any brings = true → j ∈ w.queue
  | _ => True

/-- What the caller expects: a write that is over has succeeded, and once the
stream is finished all the data of the calls has been sent in their order, and
every write that has data is over. -/
structure InCallOrder (w : World) : Prop where
  ok : ∀ (i : ℕ) (t : Task Op Loc Ret) (data : List UInt8),
    w.tasks[i]? = some t → t.called = .op (.write data) → t.pending = false →
    t = .call (.write data) (.done (.ok .none))
  written : Finished w.log → written w.log = w.calls.flatMap callData
  complete : Finished w.log → ∀ (i : ℕ) (t : Task Op Loc Ret) (data : List UInt8),
    w.tasks[i]? = some t → t.called = .op (.write data) → data ≠ [] →
    t = .call (.write data) (.done (.ok .none))

instance (w : World) : (l : Action Op Event Int32) → Decidable (InSequence w l)
  | .call (.write _) | .call .finish | .exit false =>
      inferInstanceAs (Decidable (∀ c ∈ w.calls, _))
  | .task _ _ | .python _ | .assign _ => inferInstanceAs (Decidable True)
  | .call (.writeSome _) | .call .waitClosed | .exit true | .close _ | .drop _ =>
      inferInstanceAs (Decidable False)

instance (w : World) : (l : Action Op Event Int32) → Decidable (InTurn w l)
  | .task i _ => inferInstanceAs (Decidable (_ → ∀ j < i, _ → j ∈ w.queue))
  | .call _ | .exit _ | .close _ | .assign _ | .python _ | .drop _ =>
      inferInstanceAs (Decidable True)

/-- Writes reach the stream in the order of the calls, and the `FIN` comes after
them, in the runs whose steps meet `K`. -/
def WritesInCallOrder (errorFromHttp3 : ErrorFromHttp3) (Q : Answers Event)
    (priority : Int32) (K : World → Action Op Event Int32 → Prop) : Prop :=
  ∀ ⦃tr w⦄, Run ((half errorFromHttp3).Step Q) (new priority) tr w →
    Along InSequence tr → Along K tr → InCallOrder w

/-! ## The order of the requests is the order of the calls -/

/-- Some call at a position satisfies `p`. -/
def callIs (p : Call Op → Bool) (calls : List (Call Op)) (i : ℕ) : Bool :=
  calls[i]?.any p

def takesPart (c : Call Op) : Bool :=
  brings c || isFinisher c

/-- The requests that take part are in the order of the calls, none is made
before an earlier write with data has made its own, and the finisher is the
last call. -/
structure RequestOrder (calls : List (Call Op)) (queue : List ℕ) : Prop where
  inRange : ∀ i ∈ queue, i < calls.length
  sorted : (queue.filter (callIs takesPart calls)).Pairwise (· < ·)
  below : ∀ i ∈ queue, callIs takesPart calls i = true → ∀ j < i,
    callIs brings calls j = true → j ∈ queue
  last : ∀ i, callIs isFinisher calls i = true → i + 1 = calls.length

namespace RequestOrder

variable {calls : List (Call Op)} {queue : List ℕ} {c : Call Op} {i j : ℕ}
  {p : Call Op → Bool}

theorem lt_length_of_callIs (h : callIs p calls i = true) : i < calls.length := by
  by_contra hge
  rw [callIs, List.getElem?_eq_none (by omega)] at h
  cases h

theorem callIs_concat (hi : i < calls.length) :
    callIs p (calls ++ [c]) i = callIs p calls i := by
  rw [callIs, callIs, List.getElem?_append_left hi]

theorem takesPart_of_brings (h : callIs brings calls i = true) :
    callIs takesPart calls i = true := by
  unfold callIs at h ⊢
  cases hi : calls[i]? with
  | none => rw [hi] at h; cases h
  | some c => simp_all [takesPart]

theorem takesPart_of_isFinisher (h : callIs isFinisher calls i = true) :
    callIs takesPart calls i = true := by
  unfold callIs at h ⊢
  cases hi : calls[i]? with
  | none => rw [hi] at h; cases h
  | some c => simp_all [takesPart]

theorem takesPart_cases (h : callIs takesPart calls i = true) :
    callIs brings calls i = true ∨ callIs isFinisher calls i = true := by
  unfold callIs at h ⊢
  cases hi : calls[i]? with
  | none => rw [hi] at h; cases h
  | some c => simpa [hi, takesPart] using h

theorem nil : RequestOrder [] [] where
  inRange _ h := by cases h
  sorted := List.Pairwise.nil
  below _ h := by cases h
  last i h := by cases h

theorem call (h : RequestOrder calls queue)
    (hc : ∀ c ∈ calls, isFinisher c = false) :
    RequestOrder (calls ++ [c]) queue where
  inRange i hi := by
    have hlt := h.inRange i hi
    rw [List.length_append]
    omega
  sorted := by
    have hsame : queue.filter (callIs takesPart (calls ++ [c])) =
        queue.filter (callIs takesPart calls) :=
      List.filter_congr fun i hi => callIs_concat (h.inRange i hi)
    rw [hsame]
    exact h.sorted
  below i hi hpart j hj hbrings := by
    have hlt := h.inRange i hi
    rw [callIs_concat hlt] at hpart
    rw [callIs_concat (by omega)] at hbrings
    exact h.below i hi hpart j hj hbrings
  last i hi := by
    have hlt := lt_length_of_callIs hi
    rw [List.length_append, List.length_singleton] at hlt ⊢
    by_contra hne
    have hbefore : i < calls.length := by omega
    rw [callIs_concat hbefore, callIs, List.getElem?_eq_getElem hbefore,
      Option.any_some, hc _ (List.getElem_mem hbefore)] at hi
    cases hi

theorem request (h : RequestOrder calls queue) (hi : i < calls.length)
    (hnot : i ∉ queue)
    (hturn : callIs takesPart calls i = true → ∀ j < i,
      callIs brings calls j = true → j ∈ queue) :
    RequestOrder calls (queue ++ [i]) where
  inRange j hj := by
    rcases List.mem_append.mp hj with hj | hj
    · exact h.inRange j hj
    · rwa [List.mem_singleton.mp hj]
  sorted := by
    cases hpart : callIs takesPart calls i with
    | false => simpa [List.filter_append, hpart] using h.sorted
    | true =>
        rw [List.filter_append, List.pairwise_append]
        refine ⟨h.sorted, by simp [hpart], ?_⟩
        intro j hj k hk
        obtain rfl : k = i := by simpa using (List.mem_filter.mp hk).1
        obtain ⟨hmem, hjpart⟩ := List.mem_filter.mp hj
        have hjk : j ≠ k := by
          rintro rfl
          exact hnot hmem
        -- a later call that has asked would have had to wait for `k`
        by_contra hge
        have hkj : k < j := by omega
        rcases takesPart_cases hpart with hbrings | hfin
        · exact hnot (h.below j hmem hjpart k hkj hbrings)
        · have hlast := h.last k hfin
          have hlt := h.inRange j hmem
          omega
  below j hj hpart k hk hbrings := by
    rcases List.mem_append.mp hj with hj | hj
    · exact List.mem_append_left _ (h.below j hj hpart k hk hbrings)
    · obtain rfl := List.mem_singleton.mp hj
      exact List.mem_append_left _ (hturn hpart k hk hbrings)
  last := h.last

theorem lt_of_split {before after : List ℕ}
    (h : RequestOrder calls (before ++ after)) (hi : i ∈ before)
    (hj : j ∈ after) (hipart : callIs takesPart calls i = true)
    (hjpart : callIs takesPart calls j = true) : i < j := by
  have hsorted := h.sorted
  rw [List.filter_append, List.pairwise_append] at hsorted
  exact hsorted.2.2 i (List.mem_filter.mpr ⟨hi, hipart⟩) j
    (List.mem_filter.mpr ⟨hj, hjpart⟩)

end RequestOrder

/-! ## Tasks on their course -/

/-- The task of an operation has not been interrupted, and has succeeded if it is
over. -/
def OnCourse (succeeded : Ret → Prop) : CallPc Loc Ret → Prop
  | .spawned | .checked | .waiting | .running _ | .suspended _ => True
  | .built r | .done r => succeeded r
  | _ => False

/-- A write or a finisher on its course. -/
def Sound : Task Op Loc Ret → Prop
  | .call (.write _) pc => OnCourse (· = .ok .none) pc
  | .call .finish pc => OnCourse (fun _ => True) pc
  | .exit false pc => pc ≠ .stored ∧ pc ≠ .dropped
  | _ => False

section Moves

variable {errorFromHttp3 : ErrorFromHttp3} {Q : Answers Event} {i : ℕ}
  {sh sh' : Shared Event Priorities} {t t' : Task Op Loc Ret}
  {py py' : Python Int32} {ans : Option Event} {w w' : World}
  {l : Action Op Event Int32} {priority : Int32} {succeeded : Ret → Prop}

theorem Contributes.isPrefix_callData {block : List UInt8} (h : Contributes t block) :
    block <+: callData t.called := by
  cases t with
  | exit b pc => exact h ▸ List.nil_prefix
  | call op pc =>
      cases pc with
      | done r => exact Returned.isPrefix h
      | _ => exact h

theorem Sound.inCancelBranch (h : Sound t) : t.inCancelBranch = false := by
  unfold Sound at h
  split at h
  · cases ‹CallPc Loc Ret› <;> first | rfl | cases h
  · cases ‹CallPc Loc Ret› <;> first | rfl | cases h
  · rfl
  · cases h

theorem onCourse_of_callMove {op : Op} {pc pc' : CallPc Loc Ret}
    (hc : sh.cancelled = false)
    (hbody : ∀ l v r, body errorFromHttp3 op l sh.vars ans = some (v, .ready r) →
      succeeded r)
    (h : CallMove (half errorFromHttp3) i op sh pc ans pc' sh')
    (hpc : OnCourse succeeded pc) : OnCourse succeeded pc' := by
  cases h with
  | works l ans v beat hb =>
      cases beat with
      | ready r => exact hbody l v r hb
      | _ => trivial
  | spawnedSet hset | waitingSet hset | suspendedSet _ hset =>
      rw [hc] at hset
      cases hset
  | returns r => exact hpc
  | letsGo | closeLocks | closeQueues | closeWakes | closeLoads | closeSends
  | closeReturns => cases hpc
  | _ => trivial

theorem sound_of_taskMove (hc : sh.cancelled = false)
    (hok : ∀ rest e, ans ≠ some (.write rest (.ready (.error e))))
    (h : TaskMove (half errorFromHttp3) i sh t ans t' sh') (ht : Sound t) :
    Sound t' ∧ sh'.cancelled = false := by
  have hunset : sh'.cancelled = false := by
    cases h with
    | call op h => cases h <;> exact hc
    | exit b h =>
        cases h with
        | cancels => cases b with
          | true => cases ht
          | false => exact absurd rfl ht.1
        | _ => exact hc
  refine ⟨?_, hunset⟩
  cases h with
  | call op h =>
      cases op with
      | write data =>
          refine onCourse_of_callMove hc ?_ h ht
          intro l v r hb
          cases bodyMove_of_body hb with
          | writeEnds data sent hnil => rfl
          | writeFails data sent e hne => exact absurd rfl (hok _ e)
      | finish => exact onCourse_of_callMove hc (fun _ _ _ _ => trivial) h ht
      | _ => cases ht
  | exit b h =>
      cases b with
      | true => cases ht
      | false => cases h <;> exact ⟨by simp, by simp⟩

theorem entered_of_taskMove (hc : sh.cancelled = false)
    (h : TaskMove (half errorFromHttp3) i sh t ans t' sh') (ht : Sound t)
    (hbefore : t.beforeBody = true) (hpast : t'.beforeBody = false) :
    sh'.entered = sh.entered ++ [i] := by
  cases h with
  | call op h =>
      cases h with
      | enters ho => rfl
      | spawnedSet hset | waitingSet hset =>
          rw [hc] at hset
          cases hset
      | spawnedUnset | waitingUnset | queues => cases hpast
      | _ => cases hbefore
  | exit b h =>
      cases h with
      | enters _ ho => rfl
      | wakes _ ho => rfl
      | skips hs => cases hs
      | stores => cases ht
      | begins | queues => cases hpast
      | cancels => cases hpast
      | _ => cases hbefore

theorem isFinisher_of_closes (ht : Sound t)
    (h : TaskMove (half errorFromHttp3) i sh t ans t' sh')
    (hnot : ¬ Closed sh.log) (hclosed : Closed sh'.log) :
    isFinisher t.called = true ∧ t.beforeBody = false := by
  cases h with
  | call op h =>
      cases h with
      | works l ans v beat hb =>
          have hlast : Closed ans.toList := by
            simpa [Shared.record, hnot] using hclosed
          cases bodyMove_of_body hb with
          | finishes sent => exact ⟨rfl, rfl⟩
          | _ => simp [Event.closes] at hlast
      | letsGo l | closeSends l =>
          have hbranch := ht.inCancelBranch
          cases hbranch
      | _ => exact absurd hclosed hnot
  | exit b h =>
      cases b with
      | true => cases ht
      | false =>
          cases h with
          | sendsClose _ e hb he => cases hb
          | sendsFinish _ e hb he => exact ⟨rfl, rfl⟩
          | _ => exact absurd hclosed hnot

theorem not_closed_of_pythonMove
    (h : PythonMove (half errorFromHttp3) sh py ans py' sh')
    (hpy : py.inClose = false) (hnot : ¬ Closed sh.log) : ¬ Closed sh'.log := by
  cases h with
  | sends => cases hpy
  | applies k e he =>
      obtain ⟨ok, rfl⟩ := eq_setPriority_of_isApply he
      simpa [Shared.record, Event.closes] using hnot
  | _ => exact hnot

/-! ## The invariant -/

/-- Nothing has been interrupted, the requests are in order, and the stream is
closed only by the finisher. -/
structure Ordered (w : World) : Prop where
  unset : w.cancelled = false
  python : w.python.inClose = false
  sound : ∀ (i : ℕ) (t : Task Op Loc Ret), w.tasks[i]? = some t → Sound t
  past : ∀ (i : ℕ) (t : Task Op Loc Ret), w.tasks[i]? = some t →
    t.beforeBody = false → i ∈ w.entered
  closed : Closed w.log → ∃ f ∈ w.entered, callIs isFinisher w.calls f = true
  order : RequestOrder w.calls w.queue

theorem callIs_of_task {p : Call Op → Bool} (hi : w.tasks[i]? = some t) :
    callIs p w.calls i = p t.called := by
  simp [callIs, World.calls, hi]

/-- While a write hands over data the finisher has not come to the stream. -/
theorem Ordered.not_closed (hw : Ordered w) (hin : Entries w)
    (hi : w.tasks[i]? = some t) (hbrings : brings t.called = true)
    (hbody : t.inBody = true) : ¬ Closed w.log := by
  intro hclosed
  obtain ⟨f, hf, hfin⟩ := hw.closed hclosed
  obtain ⟨before, hentered⟩ := List.getLast?_eq_some_iff.mp (hin.last i t hi hbody)
  have hne : f ≠ i := by
    rintro rfl
    rw [callIs_of_task hi] at hfin
    cases hc : t.called with
    | exit b => simp [hc, brings, callData] at hbrings
    | op op => cases op <;> simp_all [brings, callData, Op.data, isFinisher]
  have hmem : f ∈ before := by
    rw [hentered] at hf
    simpa [hne] using hf
  have horder := hw.order
  have hqueue : w.queue = before ++ (i :: (w.lock.line.filterMap Owner.task?).filter
      fun j => !decide (j ∈ w.entered)) := by
    rw [Shared.queue, requests, hentered, List.append_assoc]
    rfl
  rw [hqueue] at horder
  have hlt : f < i := horder.lt_of_split hmem List.mem_cons_self
    (RequestOrder.takesPart_of_isFinisher hfin)
    (RequestOrder.takesPart_of_brings (by rwa [callIs_of_task hi]))
  have hlast := hw.order.last f hfin
  have hlength : i < w.calls.length := by
    rw [World.calls, List.length_map]
    exact lt_length_of_getElem? hi
  omega

theorem Ordered.spawn (hw : Ordered w) (ht : Sound t)
    (hbefore : t.beforeBody = true)
    (hcalls : ∀ c ∈ w.calls, isFinisher c = false) :
    Ordered { w with tasks := w.tasks ++ [t] } where
  unset := hw.unset
  python := hw.python
  sound := forall_getElem?_concat ht hw.sound
  past := forall_getElem?_concat (fun h => absurd h (by simp [hbefore])) hw.past
  closed hclosed := by
    obtain ⟨f, hf, hfin⟩ := hw.closed hclosed
    refine ⟨f, hf, ?_⟩
    rw [World.calls, List.map_append]
    exact (RequestOrder.callIs_concat
      (RequestOrder.lt_length_of_callIs hfin)).trans hfin
  order := by
    rw [World.calls, List.map_append]
    exact hw.order.call hcalls

/-- The `write` calls of a body that has data to send succeed. -/
theorem Ordered.no_error (hpeer : HealthyPeer Q) (hw : Ordered w)
    (hin : Entries w) (hi : w.tasks[i]? = some t) (hQ : ∀ e ∈ ans, Q w.log e)
    (hm : TaskMove (half errorFromHttp3) i w.toShared t ans t' sh)
    (rest : List UInt8) (e : WriteError) :
    ans ≠ some (.write rest (.ready (.error e))) := by
  rintro rfl
  have hclosed : Closed w.log := hpeer.1 w.log rest e (hQ _ rfl)
  have hsound := hw.sound i t hi
  cases hm with
  | call op hm =>
      cases hm with
      | works l ans v beat hb =>
          cases bodyMove_of_body hb with
          | writeFails data sent e hne =>
              refine hw.not_closed hin hi ?_ rfl hclosed
              have hdata : data ≠ [] := by
                rintro rfl
                exact hne List.drop_nil
              exact decide_eq_true hdata
          | someFails => cases hsound
      | closeSends code e he => cases he
  | exit b hm =>
      cases hm with
      | sendsClose b e hb he => cases he
      | sendsFinish b e hb he => cases he

theorem Ordered.task (hpeer : HealthyPeer Q) (hw : Ordered w) (hin : Entries w)
    (hi : w.tasks[i]? = some t) (hQ : ∀ e ∈ ans, Q w.log e)
    (hm : TaskMove (half errorFromHttp3) i w.toShared t ans t' sh)
    (hturn : (t.asks && takesPart t.called) = true →
      ∀ j < i, callIs brings w.calls j = true → j ∈ w.queue) :
    Ordered { w with toShared := sh, tasks := w.tasks.set i t' } := by
  have hsound : Sound t := hw.sound i t hi
  obtain ⟨hsound', hunset⟩ :=
    sound_of_taskMove hw.unset (hw.no_error hpeer hin hi hQ hm) hm hsound
  have hkeep : ∀ j ∈ w.entered, j ∈ sh.entered := by
    intro j hj
    rcases hm.entered_cases with ⟨heq, -⟩ | ⟨heq, -⟩ <;> simp [heq, hj]
  have hpast : t'.beforeBody = false → i ∈ sh.entered := by
    intro hafter
    cases hbefore : t.beforeBody with
    | true => simp [entered_of_taskMove hw.unset hm hsound hbefore hafter]
    | false => exact hkeep i (hw.past i t hi hbefore)
  have hcalls := calls_set hi hm.called
  refine ⟨hunset, hw.python, ?_, ?_, ?_, ?_⟩
  · exact forall_getElem?_set hsound' fun j u _ => hw.sound j u
  · exact forall_getElem?_set hpast
      fun j u _ hj hafter => hkeep j (hw.past j u hj hafter)
  · intro hclosed
    rw [World.calls, hcalls]
    by_cases hbefore : Closed w.log
    · obtain ⟨f, hf, hfin⟩ := hw.closed hbefore
      exact ⟨f, hkeep f hf, hfin⟩
    · obtain ⟨hfin, hafter⟩ := isFinisher_of_closes hsound hm hbefore hclosed
      refine ⟨i, hkeep i (hw.past i t hi hafter), ?_⟩
      rwa [callIs_of_task hi]
  · rw [World.calls, hcalls]
    have hinBody : t.inBody = true → i ∈ w.entered := by
      intro hbody
      exact List.mem_of_getLast? (hin.last i t hi hbody)
    rcases hm.queue_cases (hin.not_mem hi) hinBody hsound.inCancelBranch with
      heq | ⟨hasks, hnot, heq⟩
    · simpa only [heq] using hw.order
    · simp only [heq]
      refine hw.order.request ?_ hnot fun hpart => hturn ?_
      · rw [World.calls, List.length_map]
        exact lt_length_of_getElem? hi
      · rw [callIs_of_task hi] at hpart
        rw [hasks, hpart]
        rfl

theorem ordered_step (hpeer : HealthyPeer Q) (hin : Entries w)
    (h : (half errorFromHttp3).Step Q w l w') (hseq : InSequence w l)
    (hturn : InTurn w l) (hw : Ordered w) : Ordered w' := by
  cases h.move with
  | call op =>
      cases op with
      | write data => exact hw.spawn trivial rfl hseq
      | finish => exact hw.spawn trivial rfl hseq
      | _ => cases hseq
  | exit b =>
      cases b with
      | true => cases hseq
      | false => exact hw.spawn ⟨by simp, by simp⟩ rfl hseq
  | closeRefused => cases hseq
  | closeBegins => cases hseq
  | assigns => exact ⟨hw.unset, rfl, hw.sound, hw.past, hw.closed, hw.order⟩
  | python ans hm =>
      obtain ⟨hpy, hcancelled⟩ := hm.inClose hw.python
      refine ⟨hcancelled.trans hw.unset, hpy, hw.sound, ?_, ?_, ?_⟩
      · simpa only [hm.entered_eq] using hw.past
      · intro hclosed
        rw [hm.entered_eq]
        by_contra hnone
        exact not_closed_of_pythonMove hm hw.python
          (fun hbefore => hnone (hw.closed hbefore)) hclosed
      · simpa only [World.calls, hm.queue_eq] using hw.order
  | task i ans hi hm =>
      refine hw.task hpeer hin hi h.2 hm fun hasks => hturn ?_
      rwa [hi, Option.any_some]
  | drop => cases hseq

theorem ordered_init : Ordered (new priority) where
  unset := rfl
  python := rfl
  sound i t hi := by simp [World.init] at hi
  past i t hi := by simp [World.init] at hi
  closed h := absurd h not_closed_nil
  order := RequestOrder.nil

/-! ## What the finished stream has sent -/

theorem callIs_brings_of_called {data : List UInt8} (hi : w.tasks[i]? = some t)
    (ht : t.called = .op (.write data)) (hdata : data ≠ []) :
    callIs brings w.calls i = true := by
  rw [callIs_of_task hi, ht]
  exact decide_eq_true hdata

/-- Every call with data has come to the stream before the finisher has. -/
theorem Ordered.mem_entered (hw : Ordered w) {f : ℕ} (hf : f ∈ w.entered)
    (hfin : callIs isFinisher w.calls f = true)
    (hi : callIs brings w.calls i = true) : i ∈ w.entered := by
  have hlast := hw.order.last f hfin
  have hlength := RequestOrder.lt_length_of_callIs hi
  by_cases hif : i = f
  · rwa [hif]
  have hfpart := RequestOrder.takesPart_of_isFinisher hfin
  have hqueue : i ∈ w.queue := hw.order.below f (mem_queue.mpr (Or.inl hf)) hfpart
    i (by omega) hi
  by_contra hnot
  -- otherwise it would still wait behind the finisher
  have horder := hw.order
  rw [Shared.queue, requests] at horder hqueue
  have hmem := (List.mem_append.mp hqueue).resolve_left hnot
  have hlt : f < i := horder.lt_of_split hf hmem hfpart
    (RequestOrder.takesPart_of_brings hi)
  omega

/-- Every write with data is over when the stream is finished. -/
theorem Ordered.complete (hw : Ordered w) (hin : Entries w)
    (hfinished : Finished w.log) {data : List UInt8}
    (hi : w.tasks[i]? = some t) (ht : t.called = .op (.write data))
    (hdata : data ≠ []) : t = .call (.write data) (.done (.ok .none)) := by
  obtain ⟨f, hf, hfin⟩ := hw.closed hfinished.closed
  have hbrings := callIs_brings_of_called hi ht hdata
  have hentered : i ∈ w.entered := hw.mem_entered hf hfin hbrings
  have hbody : t.inBody = false := by
    by_contra hbody
    refine hw.not_closed hin hi ?_ (by simpa using hbody) hfinished.closed
    rwa [callIs_of_task hi] at hbrings
  have hafter : t.beforeBody = false := by
    by_contra hbefore
    exact hin.not_mem hi (by simpa using hbefore) hentered
  have hsound := hw.sound i t hi
  cases t with
  | exit b pc => cases ht
  | call op pc =>
      cases ht
      cases pc with
      | done r =>
          obtain rfl : r = .ok .none := hsound
          rfl
      | running | suspended | built => cases hbody
      | spawned | checked | waiting => cases hafter
      | _ => cases hsound

theorem Ordered.ok (hw : Ordered w) {data : List UInt8}
    (hi : w.tasks[i]? = some t) (ht : t.called = .op (.write data))
    (hover : t.pending = false) :
    t = .call (.write data) (.done (.ok .none)) := by
  have hsound := hw.sound i t hi
  cases t with
  | exit b pc => cases ht
  | call op pc =>
      cases ht
      cases pc with
      | done r =>
          obtain rfl : r = .ok .none := hsound
          rfl
      | dropped => cases hsound
      | _ => cases hover

theorem Ordered.block_eq (hw : Ordered w) (hin : Entries w)
    {block : ℕ → List UInt8} (hblock : Accounted w block)
    (hfinished : Finished w.log) (hi : w.tasks[i]? = some t)
    (hbrings : brings t.called = true) :
    block i = w.calls[i]?.elim [] callData := by
  have hcall : w.calls[i]? = some t.called := by simp [World.calls, hi]
  have hsound := hw.sound i t hi
  rw [hcall, Option.elim_some]
  cases hcalled : t.called with
  | exit b => simp [hcalled, brings, callData] at hbrings
  | op op =>
      cases op with
      | write data =>
          have hdata : data ≠ [] := by
            rw [hcalled] at hbrings
            exact of_decide_eq_true hbrings
          obtain rfl := hw.complete hin hfinished hi hcalled hdata
          exact hblock.tasks i _ hi
      | writeSome data =>
          cases t with
          | exit b pc => cases hcalled
          | call op pc =>
              cases hcalled
              cases hsound
      | finish | waitClosed => simp [hcalled, brings, callData, Op.data] at hbrings

theorem data_eq_nil_of_not_brings (hi : callIs brings w.calls i = false) :
    w.calls[i]?.elim [] callData = [] := by
  cases hc : w.calls[i]? with
  | none => rfl
  | some c => simpa [callIs, hc, brings] using hi

/-- The bytes in front of the `FIN` are the data of the calls in their order. -/
theorem Ordered.written_eq (hw : Ordered w) (hin : Entries w)
    {block : ℕ → List UInt8} (hblock : Accounted w block)
    (hfinished : Finished w.log) :
    SendStream.written w.log = w.calls.flatMap callData := by
  obtain ⟨f, hf, hfin⟩ := hw.closed hfinished.closed
  have hsilent : ∀ i ∈ w.entered, callIs brings w.calls i = false →
      block i = [] := by
    intro i hi hnot
    obtain ⟨t, ht, -⟩ := hin.entered i hi
    rw [callIs_of_task ht] at hnot
    have hprefix := (hblock.tasks i t ht).contributes.isPrefix_callData
    rw [brings, decide_eq_false_iff_not, not_not] at hnot
    rwa [hnot, List.prefix_nil] at hprefix
  have hsame : w.entered.filter (callIs brings w.calls) =
      (List.range w.calls.length).filter (callIs brings w.calls) := by
    have hsorted : (w.entered.filter (callIs brings w.calls)).Pairwise (· < ·) := by
      have hsublist : w.entered.Sublist w.queue := List.sublist_append_left _ _
      refine hw.order.sorted.sublist ((hsublist.filter _).trans ?_)
      exact List.monotone_filter_right _ fun i => RequestOrder.takesPart_of_brings
    refine List.Pairwise.eq_of_mem_iff hsorted (List.pairwise_lt_range.filter _) ?_
    intro i
    rw [List.mem_filter, List.mem_filter, List.mem_range]
    constructor
    · exact fun h => ⟨RequestOrder.lt_length_of_callIs h.2, h.2⟩
    · exact fun h => ⟨hw.mem_entered hf hfin h.2, h.2⟩
  have hdata : ∀ i, callIs brings w.calls i = true →
      block i = w.calls[i]?.elim [] callData := by
    intro i hi
    have hlength := RequestOrder.lt_length_of_callIs hi
    rw [World.calls, List.length_map] at hlength
    have ht : w.tasks[i]? = some w.tasks[i] := List.getElem?_eq_getElem hlength
    exact hw.block_eq hin hblock hfinished ht (by rwa [callIs_of_task ht] at hi)
  calc SendStream.written w.log
      = w.entered.flatMap block := hblock.blocks.total_eq
    _ = (w.entered.filter (callIs brings w.calls)).flatMap block :=
        (flatMap_filter_of_eq_nil hsilent).symm
    _ = ((List.range w.calls.length).filter (callIs brings w.calls)).flatMap
          block := by rw [hsame]
    _ = ((List.range w.calls.length).filter (callIs brings w.calls)).flatMap
          fun i => w.calls[i]?.elim [] callData :=
        List.flatMap_congr fun i hi => hdata i (List.mem_filter.mp hi).2
    _ = (List.range w.calls.length).flatMap
          fun i => w.calls[i]?.elim [] callData :=
        flatMap_filter_of_eq_nil fun i _ => data_eq_nil_of_not_brings
    _ = w.calls.flatMap callData := flatMap_range_getElem? _ _

/-- Writes are sent in the order of the calls, and the `FIN` after all of them,
in every run in which the tasks ask for the mutex in the order of the calls. -/
theorem writesInCallOrder_of_inTurn (hwrite : WriteLaw Q) (hpeer : HealthyPeer Q) :
    WritesInCallOrder errorFromHttp3 Q priority InTurn := by
  intro tr w h hseq hturn
  have hboth : Reachable ((half errorFromHttp3).Step Q) (new priority) w ∧
      Ordered w := by
    refine h.invariant
      (I := fun w => Reachable ((half errorFromHttp3).Step Q) (new priority) w ∧
        Ordered w) (K := fun w l => InSequence w l ∧ InTurn w l) ?_
      (fun p hp => ⟨hseq p hp, hturn p hp⟩) ⟨Reachable.refl, ordered_init⟩
    intro w l w' hK hstep hw
    have hin : Entries w := entries_of_reachable hw.1
    exact ⟨hw.1.tail hstep, ordered_step hpeer hin hstep hK.1 hK.2 hw.2⟩
  obtain ⟨hreach, hw⟩ := hboth
  have hin : Entries w := entries_of_reachable hreach
  obtain ⟨block, hblock⟩ := accounted_of_reachable hwrite hreach
  exact ⟨fun i t data hi ht => hw.ok hi ht, hw.written_eq hin hblock,
    fun hfinished i t data hi ht => hw.complete hin hfinished hi ht⟩

end Moves

def pollTask (i : ℕ) : List (Action Op Event Int32) :=
  [.task i none, .task i none, .task i none, .task i none]

def writeByte (i : ℕ) (b : UInt8) : List (Action Op Event Int32) :=
  [.task i (some (.write [b] (.ready (.ok 1)))), .task i none, .task i none]

/-- Two writes and a `finish()` that are called before any of them is polled. -/
def threeCalls : List (Action Op Event Int32) :=
  [.call (.write [1]), .call (.write [2]), .call .finish]

def finishTask (i : ℕ) : List (Action Op Event Int32) :=
  [.task i (some (.finish true)), .task i none]

/-- Polled in the order of the calls, the writes come out in that order. -/
theorem polled_in_turn :
    written (after (new 0) (threeCalls ++ (pollTask 0 ++ writeByte 0 1) ++
      (pollTask 1 ++ writeByte 1 2) ++ (pollTask 2 ++ finishTask 2))).log =
      [1, 2] := by
  have hrun := run_after (w := new 0)
    (threeCalls ++ (pollTask 0 ++ writeByte 0 1) ++
      (pollTask 1 ++ writeByte 1 2) ++ (pollTask 2 ++ finishTask 2)) (by decide)
  exact (writesInCallOrder_of_inTurn openSession_writeLaw openSession_healthyPeer
    hrun (by decide) (by decide)).written (by decide)

/-- Without the condition writes overtake each other: the second one is polled
first. -/
theorem polled_out_of_turn :
    ¬ WritesInCallOrder noCodes OpenSession 0 fun _ _ => True := by
  intro h
  have hrun := run_after (w := new 0)
    (threeCalls ++ (pollTask 1 ++ writeByte 1 2) ++
      (pollTask 0 ++ writeByte 0 1) ++ (pollTask 2 ++ finishTask 2)) (by decide)
  have hwritten := (h hrun (by decide) along_true).written (by decide)
  exact absurd hwritten (by decide)

end WebTransport.SendStream
