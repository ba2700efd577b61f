import WebTransport.Wrapper.CloseCode

/-!
# Every code that is sent was asked for

The code of a close starts out as `0` in the atomic, is stored by close calls and
by exits, and is loaded by whichever cancel branch gets the mutex.  No cancel
branch ever loads the initial value: whoever sets the token has stored a code
first.
-/

namespace WebTransport.Wrapper

open Support

variable {Op Loc Ret Ev Vars Knob : Type}

/-- An exit is on its way to its call on the QUIC stream, or has made it. -/
def ExitPc.begun : ExitPc → Bool
  | .stored | .ready | .waiting | .held | .sent => true
  | _ => false

/-- In the run `tr` an exit was polled first and went on: it has an exception, or
the stream was not at an end that makes it return at once. -/
def Half.ExitBegins (H : Half Op Loc Ret Ev Vars Knob)
    (tr : List (World Op Loc Ret Ev Vars Knob × Action Op Ev Knob))
    (hasException : Bool) : Prop :=
  ∃ u i, (u, .task i none) ∈ tr ∧ u.tasks[i]? = some (.exit hasException .spawned) ∧
    (hasException || !H.exitSkips u.vars) = true

/-- In the run `tr` an accepted close call gave the code, or the code is `0` and
an exit has begun to close the stream abruptly. -/
def Half.Asked (H : Half Op Loc Ret Ev Vars Knob)
    (tr : List (World Op Loc Ret Ev Vars Knob × Action Op Ev Knob))
    (code : UInt32) : Prop :=
  (∃ u, (u, .close code) ∈ tr ∧ u.cancelled = false) ∨
    (code = 0 ∧ ∃ b, H.ExitBegins tr b ∧ (b || H.exitCloses) = true)

def Python.code? : Python Knob → Option UInt32
  | .tested c | .stored c | .cancelled c | .locked c | .sent c => some c
  | _ => none

/-- Nobody who goes on to set the token has stored a code. -/
structure World.Unset (w : World Op Loc Ret Ev Vars Knob) : Prop where
  token : w.cancelled = false
  python : ∀ c, w.python ≠ .stored c
  tasks : ∀ (i : ℕ) (t : Task Op Loc Ret), w.tasks[i]? = some t →
    ∀ b, t ≠ .exit b .stored

/-- What has been asked for accounts for every code on its way. -/
structure Half.Honest (H : Half Op Loc Ret Ev Vars Knob)
    (tr : List (World Op Loc Ret Ev Vars Knob × Action Op Ev Knob))
    (w : World Op Loc Ret Ev Vars Knob) : Prop where
  stored : w.Unset ∨ H.Asked tr w.code
  python : ∀ c, w.python.code? = some c → H.Asked tr c
  loaded : ∀ (i : ℕ) (t : Task Op Loc Ret), w.tasks[i]? = some t →
    ∀ op c, t = .call op (.closeLoaded c) → H.Asked tr c
  exits : ∀ (i : ℕ) (t : Task Op Loc Ret), w.tasks[i]? = some t →
    ∀ b pc, t = .exit b pc → pc.begun = true → H.ExitBegins tr b
  sent : ∀ c ∈ H.closes w.log, H.Asked tr c

section Moves

variable {H : Half Op Loc Ret Ev Vars Knob} {Q : Answers Ev} {i : ℕ}
  {sh sh' : Shared Ev Vars} {t t' : Task Op Loc Ret} {py py' : Python Knob}
  {ans : Option Ev} {w w' : World Op Loc Ret Ev Vars Knob}
  {l : Action Op Ev Knob} {code : UInt32}
  {tr : List (World Op Loc Ret Ev Vars Knob × Action Op Ev Knob)}

theorem Half.ExitBegins.mono {b : Bool} (h : H.ExitBegins tr b) :
    H.ExitBegins (tr ++ [(w, l)]) b := by
  obtain ⟨u, i, hu, hi⟩ := h
  exact ⟨u, i, List.mem_append_left _ hu, hi⟩

theorem Half.Asked.mono (h : H.Asked tr code) : H.Asked (tr ++ [(w, l)]) code := by
  refine h.imp ?_ ?_
  · rintro ⟨u, hu, hunset⟩
    exact ⟨u, List.mem_append_left _ hu, hunset⟩
  · rintro ⟨rfl, b, hbegins, hb⟩
    exact ⟨rfl, b, hbegins.mono, hb⟩

/-- A task stores the `0` of an exit, or leaves the code alone; only an exit that
has stored its code sets the token. -/
theorem TaskMove.code_cases (h : TaskMove H i sh t ans t' sh') :
    (t = .exit true .spawned ∧ ans = none ∧ sh'.code = 0) ∨
    (sh'.code = sh.code ∧ (∀ b, t' ≠ .exit b .stored) ∧
      (sh'.cancelled = sh.cancelled ∨ ∃ b, t = .exit b .stored)) := by
  cases h with
  | call op h =>
      cases h <;> exact Or.inr ⟨rfl, by simp, Or.inl rfl⟩
  | exit b h =>
      cases h with
      | stores => exact Or.inl ⟨rfl, rfl, rfl⟩
      | cancels => exact Or.inr ⟨rfl, by simp, Or.inr ⟨b, rfl⟩⟩
      | _ => exact Or.inr ⟨rfl, by simp, Or.inl rfl⟩

theorem DropMove.code_eq (h : DropMove H i sh t t' sh') :
    sh'.code = sh.code ∧ sh'.cancelled = sh.cancelled ∧
      ∀ b, t' ≠ .exit b .stored := by
  cases h <;> exact ⟨rfl, rfl, by simp⟩

theorem PythonMove.code_cases (h : PythonMove H sh py ans py' sh') :
    py.code? = some sh'.code ∨
    (sh'.code = sh.code ∧ (∀ c, py' ≠ .stored c) ∧
      (sh'.cancelled = sh.cancelled ∨ ∃ c, py = .stored c)) := by
  cases h with
  | stores c => exact Or.inl rfl
  | cancels c => exact Or.inr ⟨rfl, by simp, Or.inr ⟨c, rfl⟩⟩
  | _ => exact Or.inr ⟨rfl, by simp, Or.inl rfl⟩

theorem PythonMove.code?_eq (h : PythonMove H sh py ans py' sh')
    (hpy : py'.code? = some code) : py.code? = some code := by
  cases h with
  | stores | cancels | locks | sends => exact hpy
  | _ => cases hpy

theorem TaskMove.begun_cases (h : TaskMove H i sh t ans t' sh') {b : Bool} {pc : ExitPc}
    (ht : t' = .exit b pc) (hpc : pc.begun = true) :
    (∃ pc, t = .exit b pc ∧ pc.begun = true) ∨
      (t = .exit b .spawned ∧ ans = none ∧ (b || !H.exitSkips sh.vars) = true) := by
  cases h with
  | call op h => cases ht
  | exit b h =>
      cases ht
      cases h with
      | stores => exact Or.inr ⟨rfl, rfl, rfl⟩
      | skips | returns => cases hpc
      | begins hs => exact Or.inr ⟨rfl, rfl, by rw [hs]; rfl⟩
      | cancels | enters | queues | wakes | sendsClose | sendsFinish =>
          exact Or.inl ⟨_, rfl, rfl⟩

theorem DropMove.not_begun (h : DropMove H i sh t t' sh') {b : Bool} {pc : ExitPc}
    (ht : t' = .exit b pc) : pc.begun = false := by
  cases h <;> cases ht <;> rfl

/-! ## One step -/

theorem Half.Honest.mono (h : H.Honest tr w) : H.Honest (tr ++ [(w', l)]) w where
  stored := h.stored.imp_right .mono
  python c hc := (h.python c hc).mono
  loaded i t hi op c ht := (h.loaded i t hi op c ht).mono
  exits i t hi b pc ht hpc := (h.exits i t hi b pc ht hpc).mono
  sent c hc := (h.sent c hc).mono

theorem Half.Honest.spawn (h : H.Honest tr w)
    (hstored : ∀ b, t ≠ .exit b .stored) (hloaded : ∀ op c, t ≠ .call op (.closeLoaded c))
    (hexit : ∀ b pc, t = .exit b pc → pc.begun = false) :
    H.Honest tr { w with tasks := w.tasks ++ [t] } where
  stored := h.stored.imp_left fun hunset => ⟨hunset.token, hunset.python,
    forall_getElem?_concat hstored hunset.tasks⟩
  python := h.python
  loaded := forall_getElem?_concat (fun op c ht => absurd ht (hloaded op c)) h.loaded
  exits := by
    refine forall_getElem?_concat (fun b pc ht hpc => ?_) h.exits
    rw [hexit b pc ht] at hpc
    cases hpc
  sent := h.sent

theorem Half.Honest.pythonMove (h : H.Honest tr w)
    (hm : PythonMove H w.toShared w.python ans py' sh') :
    H.Honest tr { w with toShared := sh', python := py' } where
  stored := by
    rcases hm.code_cases with hstores | ⟨hcode, hpy, htoken⟩
    · exact Or.inr (h.python _ hstores)
    · rcases h.stored with hunset | hasked
      · refine Or.inl ⟨?_, hpy, hunset.tasks⟩
        rcases htoken with heq | ⟨c, hc⟩
        · exact heq.trans hunset.token
        · exact absurd hc (hunset.python c)
      · refine Or.inr ?_
        rw [hcode]
        exact hasked
  python c hc := h.python c (hm.code?_eq hc)
  loaded := h.loaded
  exits := h.exits
  sent c hc := by
    rcases hm.closes_cases with heq | ⟨code, hpy, -, heq⟩
    · exact h.sent c (heq ▸ hc)
    · rw [heq, List.mem_append, List.mem_singleton] at hc
      rcases hc with hc | rfl
      · exact h.sent c hc
      · exact h.python c (by rw [hpy]; rfl)

theorem Half.Honest.asked_of_exit (h : H.Honest tr w) {b : Bool} {pc : ExitPc}
    (hi : w.tasks[i]? = some (.exit b pc)) (hpc : pc.begun = true)
    (hb : (b || H.exitCloses) = true) : H.Asked tr 0 :=
  Or.inr ⟨rfl, b, h.exits i _ hi b pc rfl hpc, hb⟩

theorem Half.Honest.taskMove (h : H.Honest tr w) (hlast : (w, .task i ans) ∈ tr)
    (hi : w.tasks[i]? = some t)
    (hset : t.inCancelBranch = true → w.cancelled = true)
    (hm : TaskMove H i w.toShared t ans t' sh') :
    H.Honest tr { w with toShared := sh', tasks := w.tasks.set i t' } where
  stored := by
    rcases hm.code_cases with ⟨rfl, rfl, hzero⟩ | ⟨hcode, ht', htoken⟩
    · refine Or.inr ?_
      rw [hzero]
      exact Or.inr ⟨rfl, true, ⟨w, i, hlast, hi, rfl⟩, rfl⟩
    · rcases h.stored with hunset | hasked
      · refine Or.inl ⟨?_, hunset.python,
          forall_getElem?_set ht' fun j u _ hj => hunset.tasks j u hj⟩
        rcases htoken with heq | ⟨b, hb⟩
        · exact heq.trans hunset.token
        · exact absurd hb (hunset.tasks i t hi b)
      · refine Or.inr ?_
        rw [hcode]
        exact hasked
  python := h.python
  loaded := by
    refine forall_getElem?_set ?_ fun j u _ hj => h.loaded j u hj
    intro op c ht'
    obtain ⟨rfl, rfl⟩ := hm.loads ht'
    -- the branch was taken under the token, so a code had been stored
    refine h.stored.resolve_left fun hunset => ?_
    exact absurd ((hset rfl).symm.trans hunset.token) (by simp)
  exits := by
    refine forall_getElem?_set ?_ fun j u _ hj => h.exits j u hj
    intro b pc ht' hpc
    rcases hm.begun_cases ht' hpc with ⟨pc', rfl, hpc'⟩ | ⟨rfl, rfl, hgoes⟩
    · exact h.exits i _ hi b pc' rfl hpc'
    · exact ⟨w, i, hlast, hi, hgoes⟩
  sent c hc := by
    rcases hm.closes_cases with heq | ⟨op, code, rfl, heq⟩ | ⟨b, rfl, hb, heq⟩
    · exact h.sent c (heq ▸ hc)
    · rw [heq, List.mem_append, List.mem_singleton] at hc
      rcases hc with hc | rfl
      · exact h.sent c hc
      · exact h.loaded i _ hi op c rfl
    · rw [heq, List.mem_append, List.mem_singleton] at hc
      rcases hc with hc | rfl
      · exact h.sent c hc
      · exact h.asked_of_exit hi rfl hb

theorem Half.Honest.dropMove (h : H.Honest tr w)
    (hm : DropMove H i w.toShared t t' sh') :
    H.Honest tr { w with toShared := sh', tasks := w.tasks.set i t' } := by
  obtain ⟨hcode, htoken, ht'⟩ := hm.code_eq
  refine ⟨?_, h.python, ?_, ?_, ?_⟩
  · refine h.stored.imp (fun hunset => ⟨htoken.trans hunset.token, hunset.python,
      forall_getElem?_set ht' fun j u _ hj => hunset.tasks j u hj⟩) fun hasked => ?_
    rw [hcode]
    exact hasked
  · refine forall_getElem?_set ?_ fun j u _ hj => h.loaded j u hj
    exact fun op c hloaded => absurd hloaded hm.not_loaded
  · refine forall_getElem?_set ?_ fun j u _ hj => h.exits j u hj
    intro b pc hexit hpc
    rw [hm.not_begun hexit] at hpc
    cases hpc
  · exact fun c hc => h.sent c (hm.closes_eq ▸ hc)

theorem honest_init (vars : Vars) :
    H.Honest [] (World.init vars : World Op Loc Ret Ev Vars Knob) where
  stored := Or.inl
    ⟨rfl, by simp [World.init], fun i t hi => by simp [World.init] at hi⟩
  python c hc := by cases hc
  loaded i t hi := by simp [World.init] at hi
  exits i t hi := by simp [World.init] at hi
  sent c hc := by simp [World.init, Half.closes] at hc

theorem honest_of_run {vars : Vars} (h : Run (H.Step Q) (World.init vars) tr w) :
    H.Honest tr w := by
  induction h with
  | refl => exact honest_init vars
  | @tail tr w w' l hrun hstep ih =>
      have hlonger : H.Honest (tr ++ [(w, l)]) w := ih.mono
      have hlast : (w, l) ∈ tr ++ [(w, l)] := by simp
      cases hstep.move with
      | call op => exact hlonger.spawn (by simp) (by simp) (by simp)
      | exit b =>
          refine hlonger.spawn (by simp) (by simp) ?_
          rintro b' pc ⟨⟩
          rfl
      | closeRefused => exact hlonger
      | closeBegins code hpy hc =>
          refine ⟨hlonger.stored.imp_left fun hunset => ⟨hc, by simp, hunset.tasks⟩,
            ?_, hlonger.loaded, hlonger.exits, hlonger.sent⟩
          rintro c ⟨⟩
          exact Or.inl ⟨w, hlast, hc⟩
      | assigns k hpy =>
          refine ⟨hlonger.stored.imp_left fun hunset =>
            ⟨hunset.token, by simp, hunset.tasks⟩, ?_, hlonger.loaded,
            hlonger.exits, hlonger.sent⟩
          rintro c ⟨⟩
      | python ans hm => exact hlonger.pythonMove hm
      | task i ans hi hm =>
          exact hlonger.taskMove hlast hi (cancelled_of_inCancelBranch hrun.reachable hi) hm
      | drop i hi hm => exact hlonger.dropMove hm

/-- Every code with which the QUIC stream is closed was asked for. -/
theorem asked_of_closes {vars : Vars}
    (h : Run (H.Step Q) (World.init vars) tr w) (hc : code ∈ H.closes w.log) :
    H.Asked tr code :=
  (honest_of_run h).sent code hc

end Moves

end WebTransport.Wrapper
