import Mathlib.Data.List.Forall2
import WebTransport.Server.Model
import WebTransport.Support.Indexed

/-!
# Handing out session requests

Any number of tasks may wait for the next session request, in `accept` and in
`async for` loops.  The mutex puts them into a line: each request that the QUIC
server yields goes to one of them, none is lost or handed out twice, and nobody is
overtaken.
-/

namespace WebTransport.Server

open Support Wrapper Handshake

/-! ## The mutex -/

def Task.holds (t : Task) : Bool :=
  match t.pc with
  | .running | .built _ => true
  | .suspended => t.op.accepts
  | _ => false

def Task.queued (t : Task) : Bool :=
  match t.pc with
  | .waiting => true
  | _ => t.holds

/-- The line is made of the tasks that wait for the guard or have it, and whoever
has it is the first. -/
structure Locked (w : World) : Prop where
  holds : ∀ (i : ℕ) (t : Task), w.tasks[i]? = some t → t.holds = true →
    w.lock.holder = some i
  lined : ∀ (i : ℕ) (t : Task), w.tasks[i]? = some t →
    (i ∈ w.lock.line ↔ t.queued = true)
  inside : ∀ i ∈ w.lock.line, i < w.tasks.length

section Mutex

variable {Q : Answers Event} {i j : ℕ} {op : Op} {pc pc' : Pc} {ans : Option Event}
  {lock lock' : FifoLock ℕ} {w w' : World} {l : Action}

theorem mem_leave_iff_of_ne (hj : j ≠ i) :
    j ∈ (lock.leave i).line ↔ j ∈ lock.line :=
  List.mem_erase_of_ne hj

theorem TaskMove.mem_line_of_ne (h : TaskMove i lock op pc ans pc' lock')
    (hj : j ≠ i) : j ∈ lock'.line ↔ j ∈ lock.line := by
  cases h with
  | locks | queues => simp [FifoLock.mem_request, hj]
  | returns => exact mem_leave_iff_of_ne hj
  | _ => exact Iff.rfl

theorem TaskMove.holder_of_ne (h : TaskMove i lock op pc ans pc' lock')
    (hj : j ≠ i) (hl : lock.holder = some j) : lock'.holder = some j := by
  cases h with
  | locks | queues => exact FifoLock.holder_request hl
  | returns => exact FifoLock.holder_leave hl hj
  | _ => exact hl

theorem TaskMove.queued (h : TaskMove i lock op pc ans pc' lock')
    (ht : i ∈ lock.line ↔ Task.queued ⟨op, pc⟩ = true) :
    i ∈ lock'.line ↔ Task.queued ⟨op, pc'⟩ = true := by
  cases h with
  | locks | queues =>
      exact iff_of_true FifoLock.mem_request_self rfl
  | returns =>
      exact iff_of_false FifoLock.not_mem_leave_self (by simp [Task.queued, Task.holds])
  | enters => exact ht
  | wakes => exact ht
  | pends op pc hop hpc | receives op pc a hop hpc =>
      rcases hpc with rfl | rfl <;> simpa [Task.queued, Task.holds, hop] using ht
  | idles op pc r hop hpc =>
      have hnot : op.accepts = false := by
        rcases hop with rfl | rfl <;> rfl
      have hout : i ∉ lock.line := by
        rcases hpc with rfl | rfl <;> simp [ht, Task.queued, Task.holds, hnot]
      cases r <;> simp [hout, Pc.afterIdle, Task.queued, Task.holds, hnot]

theorem TaskMove.holds (h : TaskMove i lock op pc ans pc' lock')
    (ht : Task.holds ⟨op, pc⟩ = true → lock.holder = some i)
    (ht' : Task.holds ⟨op, pc'⟩ = true) : lock'.holder = some i := by
  cases h with
  | locks op hop ho => exact ho
  | wakes op ho => exact ho
  | pends op pc hop hpc | receives op pc a hop hpc =>
      apply ht
      rcases hpc with rfl | rfl
      · rfl
      · exact hop
  | idles op pc r hop hpc =>
      have hnot : op.accepts = false := by
        rcases hop with rfl | rfl <;> rfl
      cases r <;> simp [Pc.afterIdle, Task.holds, hnot] at ht'
  | enters | queues | returns => simp [Task.holds] at ht'

theorem Locked.leave (hw : Locked w) (i : ℕ) (op : Op) :
    Locked { w with
      lock := w.lock.leave i
      tasks := w.tasks.set i ⟨op, .dropped⟩ } := by
  constructor
  · apply forall_getElem?_set
    · intro ht
      cases ht
    · intro j t hji hj ht
      exact FifoLock.holder_leave (hw.holds j t hj ht) hji
  · apply forall_getElem?_set
    · exact iff_of_false FifoLock.not_mem_leave_self (by simp [Task.queued, Task.holds])
    · intro j t hji hj
      exact (mem_leave_iff_of_ne hji).trans (hw.lined j t hj)
  · intro j hj
    rw [List.length_set]
    exact hw.inside j (List.mem_of_mem_erase hj)

theorem Locked.call (hw : Locked w) (op : Op) (log : List Event) :
    Locked { w with log := log, tasks := w.tasks ++ [⟨op, .spawned⟩] } := by
  constructor
  · apply forall_getElem?_concat
    · intro ht
      cases ht
    · exact hw.holds
  · apply forall_getElem?_concat
    · apply iff_of_false
      · intro hmem
        exact absurd (hw.inside _ hmem) (Nat.lt_irrefl _)
      · simp [Task.queued, Task.holds]
    · exact hw.lined
  · intro j hj
    have hlt := hw.inside j hj
    simp only [List.length_append, List.length_singleton]
    omega

theorem locked_step (hw : Locked w) (h : Step Q w l w') : Locked w' := by
  cases h.move with
  | call op hop => exact hw.call op w.log
  | exit => exact hw.call .aexit _
  | close | refused => exact ⟨hw.holds, hw.lined, hw.inside⟩
  | drop i hi hpc => exact hw.leave i _
  | @task i ans t pc lock hi hm =>
      constructor
      · apply forall_getElem?_set
        · exact hm.holds (hw.holds i t hi)
        · intro j u hji hj hu
          exact hm.holder_of_ne hji (hw.holds j u hj hu)
      · apply forall_getElem?_set
        · exact hm.queued (hw.lined i t hi)
        · intro j u hji hj
          exact (hm.mem_line_of_ne hji).trans (hw.lined j u hj)
      · intro j hj
        rw [List.length_set]
        by_cases hji : j = i
        · subst hji
          exact lt_length_of_getElem? hi
        · exact hw.inside j ((hm.mem_line_of_ne hji).mp hj)

theorem locked_of_reachable (h : Reachable (Step Q) new w) : Locked w :=
  h.invariant (fun _ _ _ hstep hw => locked_step hw hstep)
    ⟨by simp [new], by simp [new], by simp [new, FifoLock.unlocked]⟩

end Mutex

/-! ## Every answer has one receiver -/

/-- What the QUIC server has yielded: requests, and `none` once it is closed. -/
def yielded (log : List Event) : List (Option Request) :=
  log.filterMap fun
    | .accept (.ready a) => some a
    | _ => none

/-- The task has the answer in hand, or has returned with it. -/
def Gets (tasks : List Task) (i : ℕ) (a : Option Request) : Prop :=
  ∃ t, tasks[i]? = some t ∧
    (t.pc = .built (received t.op a) ∨ t.pc = .done (received t.op a))

/-- The answers have gone to the tasks in `answered`, one to each, and a task that
has a request got it so. -/
structure Handed (w : World) : Prop where
  gets : List.Forall₂ (Gets w.tasks) w.answered (yielded w.log)
  built : ∀ (i : ℕ) (t : Task), w.tasks[i]? = some t → ∀ r, t.pc = .built r →
    i ∈ w.answered
  done : ∀ (i : ℕ) (t : Task), w.tasks[i]? = some t → ∀ s,
    t.pc = .done (.ok (.request s)) → i ∈ w.answered

section Handed

variable {Q : Answers Event} {i j : ℕ} {op : Op} {pc pc' : Pc} {ans : Option Event}
  {lock lock' : FifoLock ℕ} {w w' : World} {l : Action} {a : Option Request}

theorem yielded_append (log log' : List Event) :
    yielded (log ++ log') = yielded log ++ yielded log' :=
  List.filterMap_append ..

theorem TaskMove.gets {tasks : List Task} {t : Task} (hi : tasks[i]? = some t)
    (h : TaskMove i lock t.op t.pc ans pc lock') (hj : Gets tasks j a) :
    Gets (tasks.set i { t with pc := pc }) j a := by
  obtain ⟨u, hu, hpc⟩ := hj
  by_cases hij : i = j
  · subst hij
    obtain rfl := Option.some.inj (hi.symm.trans hu)
    obtain ⟨op, old⟩ := t
    refine ⟨_, getElem?_set_of_eq_some hi, ?_⟩
    dsimp only at h hpc ⊢
    rcases hpc with rfl | rfl
    · cases h with
      | returns => exact Or.inr rfl
      | pends op pc hop hpc | receives op pc b hop hpc | idles op pc r hop hpc =>
          rcases hpc with hpc | hpc <;> cases hpc
    · cases h with
      | pends op pc hop hpc | receives op pc b hop hpc | idles op pc r hop hpc =>
          rcases hpc with hpc | hpc <;> cases hpc
  · exact ⟨u, getElem?_set_of_ne hij hu, hpc⟩

theorem gets_drop {tasks : List Task} {t : Task} (hi : tasks[i]? = some t)
    (hpc : t.pc = .spawned ∨ t.pc = .waiting ∨ t.pc = .suspended)
    (hj : Gets tasks j a) : Gets (tasks.set i { t with pc := .dropped }) j a := by
  obtain ⟨u, hu, hgot⟩ := hj
  by_cases hij : i = j
  · subst hij
    obtain rfl := Option.some.inj (hi.symm.trans hu)
    rcases hpc with hpc | hpc | hpc <;> rcases hgot with hgot | hgot <;>
      · rw [hpc] at hgot
        cases hgot
  · exact ⟨u, getElem?_set_of_ne hij hu, hgot⟩

theorem gets_call {tasks : List Task} {u : Task} (hj : Gets tasks j a) :
    Gets (tasks ++ [u]) j a := by
  obtain ⟨t, ht, hpc⟩ := hj
  exact ⟨t, getElem?_concat_of_eq_some ht, hpc⟩

theorem TaskMove.built (h : TaskMove i lock op pc ans pc' lock') {r : Ret}
    (hr : pc' = .built r) : isAnswer ans = true := by
  cases h with
  | receives => rfl
  | idles op pc r => cases r <;> cases hr
  | _ => cases hr

theorem TaskMove.done (h : TaskMove i lock op pc ans pc' lock') {s : SessionRequest}
    (hs : pc' = .done (.ok (.request s))) : pc = .built (.ok (.request s)) := by
  cases h with
  | returns =>
      cases hs
      rfl
  | idles op pc r => cases r <;> cases hs
  | _ => cases hs

theorem Handed.call (hw : Handed w) (op : Op) {log : List Event}
    (hlog : yielded log = yielded w.log) :
    Handed { w with log := log, tasks := w.tasks ++ [⟨op, .spawned⟩] } := by
  refine ⟨?_, ?_, ?_⟩
  · rw [hlog]
    exact hw.gets.imp fun _ _ => gets_call
  · apply forall_getElem?_concat
    · intro r hr
      cases hr
    · exact hw.built
  · apply forall_getElem?_concat
    · intro s hs
      cases hs
    · exact hw.done

theorem handed_step (hw : Handed w) (h : Step Q w l w') : Handed w' := by
  cases h.move with
  | call op hop => exact hw.call op rfl
  | exit => exact hw.call .aexit (by simp [yielded])
  | refused => exact hw
  | close code reason hcode =>
      refine ⟨?_, hw.built, hw.done⟩
      rw [yielded_append]
      simpa [yielded] using hw.gets
  | @drop i t hi hpc =>
      refine ⟨hw.gets.imp fun _ _ => gets_drop hi hpc, ?_, ?_⟩
      · apply forall_getElem?_set
        · intro r hr
          cases hr
        · exact fun j u _ => hw.built j u
      · apply forall_getElem?_set
        · intro s hs
          cases hs
        · exact fun j u _ => hw.done j u
  | @task i ans t pc lock hi hm =>
      have hkept : List.Forall₂ (Gets (w.tasks.set i { t with pc := pc })) w.answered
          (yielded w.log) :=
        hw.gets.imp fun _ _ => hm.gets hi
      refine ⟨?_, ?_, ?_⟩
      · rw [yielded_append]
        refine List.rel_append hkept ?_
        obtain ⟨op, old⟩ := t
        cases hm with
        | receives op pc a hop hpc =>
            exact .cons ⟨_, getElem?_set_of_eq_some hi, Or.inl rfl⟩ .nil
        | _ => exact .nil
      · apply forall_getElem?_set
        · intro r hr
          simp [hm.built hr]
        · intro j u _ hj r hr
          exact List.mem_append_left _ (hw.built j u hj r hr)
      · apply forall_getElem?_set
        · intro s hs
          exact List.mem_append_left _ (hw.built i t hi _ (hm.done hs))
        · intro j u _ hj s hs
          exact List.mem_append_left _ (hw.done j u hj s hs)

theorem handed_of_reachable (h : Reachable (Step Q) new w) : Handed w :=
  h.invariant (fun _ _ _ hstep hw => handed_step hw hstep)
    ⟨.nil, by simp [new], by simp [new]⟩

end Handed

/-! ## Nobody is overtaken -/

/-- The tasks that stand in the line and have no answer yet, in its order. -/
def World.line (w : World) : List ℕ :=
  w.lock.line.filter fun i => i ∉ w.answered

/-- The tasks have been answered, and stand in the line, in the order in which
they asked for the mutex. -/
structure Fair (w : World) : Prop where
  started : ∀ i ∈ w.asked, ∃ t, w.tasks[i]? = some t ∧ t.pc ≠ .spawned
  nodup : w.asked.Nodup
  order : (w.answered ++ w.line).Sublist w.asked

section Fair

variable {Q : Answers Event} {i j : ℕ} {op : Op} {pc pc' : Pc} {ans : Option Event}
  {lock lock' : FifoLock ℕ} {w w' : World} {l : Action}

theorem TaskMove.not_spawned (h : TaskMove i lock op pc ans pc' lock') :
    pc' ≠ .spawned := by
  cases h with
  | idles op pc r => cases r <;> simp [Pc.afterIdle]
  | _ => simp

/-- A task asks for the mutex, gets an answer under the guard, or does neither and
moves nobody up in the line. -/
theorem TaskMove.turn (h : TaskMove i lock op pc ans pc' lock') :
    (pc = .spawned ∧ asks op pc = true ∧ isAnswer ans = false ∧
        lock' = lock.request i) ∨
      (asks op pc = false ∧ isAnswer ans = true ∧ lock' = lock ∧
        Task.holds ⟨op, pc⟩ = true ∧ ∀ r, pc ≠ .built r) ∨
      (asks op pc = false ∧ isAnswer ans = false ∧
        lock'.line.Sublist lock.line) := by
  cases h with
  | locks op hop | queues op hop =>
      exact Or.inl ⟨rfl, by simp [asks, hop], rfl, rfl⟩
  | receives op pc a hop hpc =>
      refine Or.inr (Or.inl ?_)
      rcases hpc with rfl | rfl <;> simp [asks, isAnswer, Task.holds, hop]
  | pends op pc hop hpc =>
      refine Or.inr (Or.inr ⟨?_, rfl, List.Sublist.refl _⟩)
      rcases hpc with rfl | rfl <;> rfl
  | returns => exact Or.inr (Or.inr ⟨rfl, rfl, List.erase_sublist⟩)
  | idles op pc r hop hpc =>
      refine Or.inr (Or.inr ⟨?_, rfl, List.Sublist.refl _⟩)
      rcases hop with rfl | rfl <;> simp [asks, Op.accepts]
  | enters | wakes => exact Or.inr (Or.inr ⟨rfl, rfl, List.Sublist.refl _⟩)

theorem line_of_holder (hw : w.lock.holder = some i) (hi : i ∉ w.answered) :
    ∃ rest, w.lock.line = i :: rest ∧ i ∉ rest ∧
      w.line = i :: rest.filter fun j => j ∉ w.answered := by
  obtain ⟨rest, hline⟩ : ∃ rest, w.lock.line = i :: rest := by
    cases hl : w.lock.line with
    | nil => simp [FifoLock.holder, hl] at hw
    | cons j rest => exact ⟨rest, by simpa [FifoLock.holder, hl] using hw⟩
  refine ⟨rest, hline, ?_, by simp [World.line, hline, hi]⟩
  have hnodup := w.lock.nodup
  rw [hline] at hnodup
  exact (List.nodup_cons.mp hnodup).1

/-- An answer takes the first task out of the line. -/
theorem answered_append_line (hw : w.lock.holder = some i) (hi : i ∉ w.answered) :
    (w.answered ++ [i]) ++ w.lock.line.filter (fun j => j ∉ w.answered ++ [i]) =
      w.answered ++ w.line := by
  obtain ⟨rest, hline, hout, hrest⟩ := line_of_holder hw hi
  have hfilter : (rest.filter fun j => j ∉ w.answered ++ [i]) =
      rest.filter fun j => j ∉ w.answered := by
    apply List.filter_congr
    intro j hj
    have hne : j ≠ i := fun heq => hout (heq ▸ hj)
    simp [hne]
  rw [hline, hrest, List.filter_cons_of_neg (by simp), hfilter]
  simp

theorem Fair.started_set (hw : Fair w) {t : Task} (hi : w.tasks[i]? = some t)
    (hpc : pc ≠ .spawned) : ∀ j ∈ w.asked,
    ∃ u, (w.tasks.set i { t with pc := pc })[j]? = some u ∧ u.pc ≠ .spawned := by
  intro j hj
  obtain ⟨u, hu, hne⟩ := hw.started j hj
  by_cases hij : i = j
  · subst hij
    exact ⟨_, getElem?_set_of_eq_some hi, hpc⟩
  · exact ⟨u, getElem?_set_of_ne hij hu, hne⟩

theorem Fair.call (hw : Fair w) (op : Op) (log : List Event) :
    Fair { w with log := log, tasks := w.tasks ++ [⟨op, .spawned⟩] } where
  started j hj := by
    obtain ⟨u, hu, hne⟩ := hw.started j hj
    exact ⟨u, getElem?_concat_of_eq_some hu, hne⟩
  nodup := hw.nodup
  order := hw.order

theorem fair_step (hw : Fair w) (hlocked : Locked w) (hhanded : Handed w)
    (h : Step Q w l w') : Fair w' := by
  cases h.move with
  | call op hop => exact hw.call op w.log
  | exit => exact hw.call .aexit _
  | close | refused => exact ⟨hw.started, hw.nodup, hw.order⟩
  | @drop i t hi hpc =>
      refine ⟨hw.started_set hi (by simp), hw.nodup, ?_⟩
      have hline : ((w.lock.leave i).line.filter fun j => j ∉ w.answered).Sublist
          w.line :=
        List.erase_sublist.filter _
      exact ((List.Sublist.refl _).append hline).trans hw.order
  | @task i ans t pc lock hi hm =>
      have hstarted := hw.started_set hi hm.not_spawned
      rcases hm.turn with ⟨hspawned, hasks, hans, rfl⟩ |
        ⟨hasks, hans, rfl, hholds, hbuilt⟩ | ⟨hasks, hans, hline⟩
      · -- the task is the last to ask, and the last in the line
        have hout : i ∉ w.lock.line := by
          rw [hlocked.lined i t hi]
          simp [Task.queued, Task.holds, hspawned]
        have hnew : i ∉ w.asked := by
          intro hmem
          obtain ⟨u, hu, hne⟩ := hw.started i hmem
          obtain rfl := Option.some.inj (hi.symm.trans hu)
          exact hne hspawned
        have hsilent : i ∉ w.answered := fun hmem =>
          hnew (hw.order.subset (List.mem_append_left _ hmem))
        simp only [hasks, hans, if_true, Bool.false_eq_true, if_false, List.append_nil]
        refine ⟨?_, ?_, ?_⟩
        · intro j hj
          rcases List.mem_append.mp hj with hold | hlast
          · exact hstarted j hold
          · obtain rfl := List.mem_singleton.mp hlast
            exact ⟨_, getElem?_set_of_eq_some hi, hm.not_spawned⟩
        · exact List.nodup_append.mpr ⟨hw.nodup, List.nodup_singleton i, by
            simpa using fun j hj (hji : j = i) => hnew (hji ▸ hj)⟩
        · simp only [World.line, FifoLock.line_request_of_not_mem hout,
            List.filter_append, List.filter_singleton, hsilent, not_false_eq_true,
            decide_true]
          rw [← List.append_assoc]
          exact hw.order.append (List.Sublist.refl [i])
      · -- the first in the line is answered
        have hsilent : i ∉ w.answered := by
          intro hmem
          obtain ⟨k, hk, rfl⟩ := List.getElem_of_mem hmem
          obtain ⟨u, hu, hgot⟩ := (List.forall₂_iff_get.mp hhanded.gets).2 k hk
            ((List.forall₂_iff_get.mp hhanded.gets).1 ▸ hk)
          obtain rfl := Option.some.inj (hi.symm.trans hu)
          rcases hgot with hgot | hgot
          · exact hbuilt _ hgot
          · simp [Task.holds, hgot] at hholds
        simp only [hasks, hans, if_true, Bool.false_eq_true, if_false, List.append_nil]
        refine ⟨hstarted, hw.nodup, ?_⟩
        change ((w.answered ++ [i]) ++ w.lock.line.filter
          (fun j => j ∉ w.answered ++ [i])).Sublist w.asked
        rw [answered_append_line (hlocked.holds i t hi hholds) hsilent]
        exact hw.order
      · simp only [hasks, hans, Bool.false_eq_true, if_false, List.append_nil]
        refine ⟨hstarted, hw.nodup, ?_⟩
        exact ((List.Sublist.refl _).append (hline.filter _)).trans hw.order

theorem fair_of_reachable (h : Reachable (Step Q) new w) : Fair w := by
  have hall : Locked w ∧ Handed w ∧ Fair w := by
    refine h.invariant (I := fun w => Locked w ∧ Handed w ∧ Fair w) ?_ ?_
    · rintro u l v hstep ⟨hlocked, hhanded, hfair⟩
      exact ⟨locked_step hlocked hstep, handed_step hhanded hstep,
        fair_step hfair hlocked hhanded hstep⟩
    · exact ⟨locked_of_reachable (Q := Q) Reachable.refl,
        handed_of_reachable (Q := Q) Reachable.refl, by simp [new], by simp [new],
        by simp [new, World.line, FifoLock.unlocked]⟩
  exact hall.2.2

end Fair

/-- The answers of the QUIC server are handed out one by one: the tasks that were
answered are listed once each, beside the answers that they got, no other task has
a request, and those that were answered and those that still wait stand in the
order in which they asked. -/
structure HandsOut (w : World) : Prop where
  once : w.answered.Nodup
  gets : List.Forall₂ (Gets w.tasks) w.answered (yielded w.log)
  only : ∀ (i : ℕ) (t : Task), w.tasks[i]? = some t → ∀ s,
    t.pc = .done (.ok (.request s)) → i ∈ w.answered
  fair : (w.answered ++ w.line).Sublist w.asked

section Handout

variable {Q : Answers Event} {w : World}

/-- In every run each session request that the QUIC server yields is handed to one
task, none is lost or handed out twice, and the tasks that wait for one are served
in the order in which they asked. -/
theorem requests_handed_out (h : Reachable (Step Q) new w) : HandsOut w where
  once := (List.nodup_append.mp
    ((fair_of_reachable h).nodup.sublist (fair_of_reachable h).order)).1
  gets := (handed_of_reachable h).gets
  only := (handed_of_reachable h).done
  fair := (fair_of_reachable h).order

end Handout

/-- A server that yields one request and is closed then. -/
def closingServer (log : List Event) : Event → Bool
  | .accept .pending => true
  | .accept (.ready (some request)) => request = ⟨"/"⟩ && yielded log = []
  | .accept (.ready none) => yielded log ≠ []
  | .close _ _ => true
  | .waitIdle _ => true

/-- Two tasks wait for a request, the second one in an `async for`. -/
def twoWait : List Action :=
  [.call .accept, .call .anext, .task 0 none, .task 0 (some (.accept .pending)),
    .task 1 none, .task 0 (some (.accept (.ready (some ⟨"/"⟩)))), .close 7 "bye",
    .task 0 none, .task 1 none, .task 1 (some (.accept (.ready none))), .task 1 none]

def served : World :=
  after closingServer new twoWait

theorem served_reachable :
    Reachable (Step fun log e => closingServer log e = true) new served :=
  (run_after twoWait (by decide)).reachable

theorem served_handed_out : HandsOut served :=
  requests_handed_out served_reachable

end WebTransport.Server
