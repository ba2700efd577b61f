import WebTransport.SendStream.Model
import WebTransport.Support.Blocks
import WebTransport.Wrapper.Exclusion

/-!
# Concurrent writers never interleave

Whatever the peer's window, the order of the polls and the interruptions, the
bytes that the QUIC stream accepts form one contiguous block for each operation,
in the order in which the operations got the mutex.
-/

namespace WebTransport.SendStream

open Support Wrapper

/-! ## The block of an operation -/

/-- The bytes that an operation is given to send. -/
def Op.data : Op → List UInt8
  | .write data | .writeSome data => data
  | .finish | .waitClosed => []

/-- The bytes that a body has handed over when it comes to a place. -/
def handedOver : Op → Loc → List UInt8
  | .write data, .call sent => data.take sent
  | _, _ => []

/-- What an operation that has returned `r` has contributed. -/
def Returned : Op → Ret → List UInt8 → Prop
  | .write data, .ok _, block => block = data
  | .writeSome data, .ok (.count n), block => n ≤ data.length ∧ block = data.take n
  | op, _, block => block <+: op.data

/-- What a task has contributed: all of its data, the number of bytes that it
reports, or some prefix if it was interrupted, dropped, or is not over. -/
def Contributes : Task Op Loc Ret → List UInt8 → Prop
  | .call op (.done r), block => Returned op r block
  | .call op _, block => block <+: op.data
  | .exit _ _, block => block = []

/-- What a task has contributed when it is at a point of its program. -/
def Accounts : Task Op Loc Ret → List UInt8 → Prop
  | .call op pc, block =>
      match pc with
      | .spawned | .checked | .waiting => block = []
      | .running l | .suspended l => block = handedOver op l
      | .built r | .done r => Returned op r block
      | _ => block <+: op.data
  | .exit _ _, block => block = []

theorem handedOver_isPrefix (op : Op) (l : Loc) : handedOver op l <+: op.data := by
  unfold handedOver
  split
  · exact List.take_prefix _ _
  · exact List.nil_prefix

theorem Returned.isPrefix {op : Op} {r : Ret} {block : List UInt8}
    (h : Returned op r block) : block <+: op.data := by
  unfold Returned at h
  split at h
  · exact h ▸ List.prefix_rfl
  · exact h.2 ▸ List.take_prefix _ _
  · exact h

theorem returned_error {op : Op} {e : PyErr} {block : List UInt8} :
    Returned op (.error e) block ↔ block <+: op.data := by
  cases op <;> rfl

theorem Accounts.contributes {t : Task Op Loc Ret} {block : List UInt8}
    (h : Accounts t block) : Contributes t block := by
  cases t with
  | exit b pc => exact h
  | call op pc =>
      cases pc with
      | done r => exact h
      | built r => exact Returned.isPrefix h
      | running l => exact h ▸ handedOver_isPrefix op l
      | suspended l => exact h ▸ handedOver_isPrefix op l
      | spawned | checked | waiting => exact h ▸ List.nil_prefix
      | _ => exact h

/-! ## What one step contributes -/

section Moves

variable {errorFromHttp3 : ErrorFromHttp3} {Q : Answers Event} {i : ℕ}
  {sh sh' : Shared Event Priorities} {t t' : Task Op Loc Ret}
  {ans : Option Event} {w w' : World} {l : Action Op Event Int32}
  {priority : Int32} {block : List UInt8} {v v' : Priorities} {op : Op}
  {loc : Loc} {beat : Beat Loc Ret}

/-- A step of a body hands over what the account of the task gains. -/
theorem accounts_of_bodyMove (hwrite : WriteLaw Q) {log : List Event}
    (hQ : ∀ e ∈ ans, Q log e) (h : BodyMove errorFromHttp3 v op loc ans v' beat) :
    Accounts (.call op beat.pc) (handedOver op loc ++ written ans.toList) := by
  cases h with
  | writeEnds data sent hnil =>
      have hlength : data.length ≤ sent := List.drop_eq_nil_iff.mp hnil
      simp [Accounts, Beat.pc, Returned, handedOver, hlength]
  | writeAccepts data sent n hne =>
      simp [Accounts, Beat.pc, handedOver, Event.bytes, List.take_add]
  | writeFails data sent e hne =>
      have hprefix : data.take sent <+: data := List.take_prefix sent data
      simpa [Accounts, Beat.pc, handedOver, Event.bytes, Returned, Op.data]
        using hprefix
  | someAccepts data sent n =>
      have hn : n ≤ data.length := hwrite log data n (hQ _ rfl)
      simpa [Accounts, Beat.pc, handedOver, Event.bytes, Returned] using hn
  | agrees op desired heq => cases op <;> simp [Accounts, Beat.pc, handedOver]
  | storesSynced op desired =>
      cases op <;> simp [Accounts, Beat.pc, handedOver]
  | _ => simp [Accounts, Beat.pc, handedOver, Event.bytes, Returned, Op.data]

theorem written_of_pythonMove {py py' : Python Int32}
    (h : PythonMove (half errorFromHttp3) sh py ans py' sh') :
    written sh'.log = written sh.log := by
  rw [log_of_pythonMove h]
  cases h with
  | sends code e he =>
      obtain ⟨ok, rfl⟩ := eq_reset_of_closeCode he
      simp [Event.bytes]
  | applies k e he =>
      obtain ⟨ok, rfl⟩ := eq_setPriority_of_isApply he
      simp [Event.bytes]
  | _ => simp

theorem written_eq_nil_of_not_inBody
    (h : TaskMove (half errorFromHttp3) i sh t ans t' sh')
    (ht : t.inBody = false) : written ans.toList = [] := by
  cases h with
  | call op h =>
      cases h with
      | works => cases ht
      | closeSends code e he =>
          obtain ⟨ok, rfl⟩ := eq_reset_of_closeCode he
          simp [Event.bytes]
      | _ => rfl
  | exit b h =>
      cases h with
      | sendsClose => cases ht
      | sendsFinish => cases ht
      | _ => rfl

/-- One step of a task keeps its account. -/
theorem accounts_of_taskMove (hwrite : WriteLaw Q)
    (hQ : ∀ e ∈ ans, Q sh.log e)
    (h : TaskMove (half errorFromHttp3) i sh t ans t' sh')
    (ht : Accounts t block) : Accounts t' (block ++ written ans.toList) := by
  cases h with
  | call op h =>
      cases h with
      | works loc ans v beat hb =>
          obtain rfl : block = handedOver op loc := ht
          exact accounts_of_bodyMove hwrite hQ (bodyMove_of_body hb)
      | enters ho =>
          obtain rfl : block = [] := ht
          simp [Accounts, half, handedOver]
      | suspendedSet loc hc =>
          obtain rfl : block = handedOver op loc := ht
          simpa [Accounts] using handedOver_isPrefix op loc
      | spawnedSet hc | waitingSet hc =>
          obtain rfl : block = [] := ht
          simp [Accounts]
      | closeSends code e he =>
          obtain ⟨ok, rfl⟩ := eq_reset_of_closeCode he
          simpa [Accounts, Event.bytes] using ht
      | closeReturns => simpa [Accounts, half, returned_error] using ht
      | _ => simpa [Accounts] using ht
  | exit b h =>
      obtain rfl : block = [] := ht
      cases h with
      | sendsClose b e hb he =>
          obtain ⟨ok, rfl⟩ := eq_reset_of_closeCode he
          simp [Accounts, Event.bytes]
      | sendsFinish b e hb he =>
          obtain ⟨ok, rfl⟩ := eq_finish_of_isFinish he
          simp [Accounts, Event.bytes]
      | _ => simp [Accounts]

theorem accounts_of_dropMove
    (h : DropMove (half errorFromHttp3) i sh t t' sh') (ht : Accounts t block) :
    Accounts t' block := by
  cases h with
  | callSuspended op loc =>
      obtain rfl : block = handedOver op loc := ht
      exact handedOver_isPrefix op loc
  | callSpawned op | callWaiting op =>
      obtain rfl : block = [] := ht
      exact List.nil_prefix
  | callCloseWaiting op => exact ht
  | exitSpawned b | exitWaiting b => exact ht

/-! ## The invariant -/

/-- The accepted bytes are cut into blocks as the tasks account for them. -/
structure Accounted (w : World) (block : ℕ → List UInt8) : Prop where
  blocks : Blocks (written w.log) w.entered block
  tasks : ∀ (i : ℕ) (t : Task Op Loc Ret), w.tasks[i]? = some t →
    Accounts t (block i)

theorem Accounted.spawn {block : ℕ → List UInt8} (hw : Accounted w block)
    (hin : Entries w) (ht : Accounts t []) :
    Accounted { w with tasks := w.tasks ++ [t] } block where
  blocks := hw.blocks
  tasks := by
    refine forall_getElem?_concat ?_ hw.tasks
    have hnot : w.tasks.length ∉ w.entered := by
      intro hmem
      exact absurd (hin.lt_length hmem) (by omega)
    rwa [hw.blocks.outside _ hnot]

theorem Accounted.task (hwrite : WriteLaw Q) {block : ℕ → List UInt8}
    (hw : Accounted w block) (hin : Entries w)
    (hi : w.tasks[i]? = some t) (hQ : ∀ e ∈ ans, Q w.log e)
    (hm : TaskMove (half errorFromHttp3) i w.toShared t ans t' sh) :
    ∃ block', Accounted { w with toShared := sh, tasks := w.tasks.set i t' }
      block' := by
  have haccounts := accounts_of_taskMove hwrite hQ hm (hw.tasks i t hi)
  have hlog := log_of_taskMove hm
  by_cases hbody : t.inBody = true
  · refine ⟨Function.update block i (block i ++ written ans.toList), ?_, ?_⟩
    · have hentered : sh.entered = w.entered := by
        rcases hm.entered_cases with ⟨heq, -⟩ | ⟨-, hbefore, -⟩
        · exact heq
        · exact absurd (hin.last i t hi hbody) (by
            have hnot := hin.not_mem hi hbefore
            exact fun hlast => hnot (List.mem_of_getLast? hlast))
      simp only [hentered, hlog, written_append]
      exact hw.blocks.extend (hin.last i t hi hbody)
    · refine forall_getElem?_set ?_ fun j u hji hj => ?_
      · simpa using haccounts
      · simpa [Function.update_of_ne hji] using hw.tasks j u hj
  · have hnil := written_eq_nil_of_not_inBody hm (by simpa using hbody)
    rw [hnil, List.append_nil] at haccounts
    refine ⟨block, ?_, forall_getElem?_set haccounts fun j u _ => hw.tasks j u⟩
    simp only [hlog, written_append, hnil, List.append_nil]
    rcases hm.entered_cases with ⟨heq, -⟩ | ⟨heq, hbefore, -⟩
    · simpa only [heq] using hw.blocks
    · simpa only [heq] using hw.blocks.enter (hin.not_mem hi hbefore)

theorem accounted_step (hwrite : WriteLaw Q) (hin : Entries w)
    (h : (half errorFromHttp3).Step Q w l w')
    (hw : ∃ block, Accounted w block) : ∃ block, Accounted w' block := by
  obtain ⟨block, hw⟩ := hw
  cases h.move with
  | call op => exact ⟨block, hw.spawn hin rfl⟩
  | exit b => exact ⟨block, hw.spawn hin rfl⟩
  | closeRefused => exact ⟨block, hw⟩
  | closeBegins => exact ⟨block, hw.blocks, hw.tasks⟩
  | assigns => exact ⟨block, hw.blocks, hw.tasks⟩
  | python ans hm =>
      refine ⟨block, ?_, hw.tasks⟩
      simpa only [hm.entered_eq, written_of_pythonMove hm] using hw.blocks
  | task i ans hi hm => exact hw.task hwrite hin hi h.2 hm
  | drop i hi hm =>
      refine ⟨block, ?_, ?_⟩
      · simpa only [hm.entered_eq, log_of_dropMove hm] using hw.blocks
      · exact forall_getElem?_set (accounts_of_dropMove hm (hw.tasks i _ hi))
          fun j u _ => hw.tasks j u

theorem accounted_of_reachable (hwrite : WriteLaw Q)
    (h : Reachable ((half errorFromHttp3).Step Q) (new priority) w) :
    ∃ block, Accounted w block := by
  have hboth : Reachable ((half errorFromHttp3).Step Q) (new priority) w ∧
      ∃ block, Accounted w block := by
    refine h.invariant
      (I := fun w => Reachable ((half errorFromHttp3).Step Q) (new priority) w ∧
        ∃ block, Accounted w block) ?_ ⟨Reachable.refl, fun _ => [], ?_⟩
    · intro w l w' hstep hw
      have hin : Entries w := entries_of_reachable hw.1
      exact ⟨hw.1.tail hstep, accounted_step hwrite hin hstep hw.2⟩
    · exact ⟨Blocks.nil, fun i t hi => by simp [World.init] at hi⟩
  exact hboth.2

/-! ## Nothing after the end -/

/-- No bytes are accepted after a successful `finish` or `reset`. -/
def Silent (log : List Event) : Prop :=
  ∀ pre e post, log = pre ++ e :: post → e.closes = true → written post = []

theorem silent_concat {log : List Event} {e : Event} (h : Silent log)
    (he : Closed log → e.bytes = []) : Silent (log ++ [e]) := by
  intro pre a post heq ha
  rcases List.eq_nil_or_concat post with rfl | ⟨post', b, rfl⟩
  · rfl
  · have hsplit : log ++ [e] = (pre ++ a :: post') ++ [b] := by simpa using heq
    obtain ⟨rfl, heb⟩ := List.append_inj' hsplit rfl
    obtain rfl : e = b := by simpa using heb
    have hclosed : Closed (pre ++ a :: post') := by simp [Closed, ha]
    simp [h pre a post' rfl ha, he hclosed]

theorem bytes_eq_nil_of_closed (hclosed : ClosedWriteLaw Q) {log : List Event}
    {e : Event} (hQ : Q log e) (h : Closed log) : e.bytes = [] := by
  cases e with
  | write data r => rw [hclosed log data r hQ h]; rfl
  | _ => rfl

theorem silent_of_reachable (hclosed : ClosedWriteLaw Q)
    (h : Reachable ((half errorFromHttp3).Step Q) (new priority) w) :
    Silent w.log := by
  refine h.invariant (I := fun w => Silent w.log) ?_ (by simp [Silent, World.init])
  intro w l w' hstep hw
  have hlog := log_of_step hstep
  cases hans : l.answer with
  | none => rw [hlog, hans, Option.toList_none, List.append_nil]; exact hw
  | some e =>
      rw [hlog, hans]
      exact silent_concat hw (bytes_eq_nil_of_closed hclosed (hstep.2 e hans))

/-- Concurrent writers never interleave: the accepted bytes are one block for
each operation that got the mutex, in that order, and nothing is accepted after
the end of the stream. -/
theorem written_eq_blocks (hwrite : WriteLaw Q) (hclosed : ClosedWriteLaw Q)
    (h : Reachable ((half errorFromHttp3).Step Q) (new priority) w) :
    (∃ block, Blocks (written w.log) w.entered block ∧
      ∀ i t, w.tasks[i]? = some t → Contributes t (block i)) ∧
    Silent w.log := by
  obtain ⟨block, hw⟩ := accounted_of_reachable hwrite h
  refine ⟨⟨block, hw.blocks, fun i t hi => ?_⟩, silent_of_reachable hclosed h⟩
  exact (hw.tasks i t hi).contributes

end Moves

/-- A write is held up after its first byte while another writer waits for the
mutex. -/
def twoWriters : World :=
  after (new 0) (startCall (.write [1, 2]) 0 ++
    [.task 0 (some (.write [1, 2] (.ready (.ok 1)))),
      .task 0 (some (.write [2] .pending)),
      .call (.writeSome [3, 4]), .task 1 none, .task 1 none,
      .task 0 none, .task 0 (some (.write [2] (.ready (.ok 1)))), .task 0 none,
      .task 0 none, .task 1 none, .task 1 none, .task 1 none, .task 1 none,
      .task 1 (some (.write [3, 4] (.ready (.ok 1)))), .task 1 none])

theorem twoWriters_blocks :
    ∃ block, Blocks (written twoWriters.log) [0, 1] block ∧
      block 0 = [1, 2] ∧ block 1 = [3] := by
  obtain ⟨⟨block, hblocks, hcontributes⟩, -⟩ :=
    written_eq_blocks openSession_writeLaw openSession_closedWriteLaw
      (w := twoWriters) (run_after _ (by decide)).reachable
  refine ⟨block, hblocks, ?_, ?_⟩
  · exact hcontributes 0 (.call (.write [1, 2]) (.done (.ok .none))) rfl
  · exact (hcontributes 1 (.call (.writeSome [3, 4]) (.done (.ok (.count 1))))
      rfl).2

end WebTransport.SendStream
