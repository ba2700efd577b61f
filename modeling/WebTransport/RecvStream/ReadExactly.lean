import WebTransport.RecvStream.Progress
import WebTransport.RecvStream.Undisturbed

/-!
# What `readexactly` gives

On a finished stream `readexactly(n)` takes the next `n` bytes, or reports all that
is left when there are fewer.  It allocates the whole buffer beforehand, and a
buffer of more than `isize::MAX` bytes cannot be allocated.
-/

namespace WebTransport.RecvStream

open Support Wrapper

/-- The bytes of `S` that have not been taken yet. -/
def left (S : List UInt8) (w : World) : List UInt8 :=
  S.drop (consumed w.log).length

/-- In `u` the result of `readexactly(n)` in front of the bytes `rest` is `r`. -/
structure ReadsExactly (n : UInt64) (rest : List UInt8) (u : World) (r : Ret) :
    Prop where
  full : n.toNat ≤ rest.length → r = .ok (.bytes (rest.take n.toNat))
  short : rest.length < n.toNat →
    (∃ msg, r = .error (.streamIncompleteReadError msg n rest)) ∧ u.vars.eof = true

/-- Everything has arrived, so that no read has to wait. -/
def Arrived (Q : Answers Event) : Prop :=
  ∀ log want, ¬ Q log (.readExact want .pending)

def own (i : ℕ) : Action Op Event Empty → Bool
  | .task j _ => decide (j = i)
  | _ => false

section Total

variable (errorFromHttp3 : ErrorFromHttp3) (Q : Answers Event) (S : List UInt8)

/-- From `w` on, in which `readexactly(n)` has got the guard as task `i`, its result
is the right one whatever else happens, and where everything has arrived it comes
to one: it can always go on, and its steps are bounded. -/
structure Total (w : World) (i : ℕ) (n : UInt64) : Prop where
  result : ∀ {tr u r}, Run ((half errorFromHttp3).Step Q) w tr u →
    Along Undisturbed tr → u.tasks[i]? = some (.call (.readexactly n) (.done r)) →
    ReadsExactly n (left S w) u r
  returns : Arrived Q → ∃ k, ∀ {tr u}, Run ((half errorFromHttp3).Step Q) w tr u →
    Along Undisturbed tr → (tr.countP fun p => own i p.2) ≤ k ∧
      ((∃ r, u.tasks[i]? = some (.call (.readexactly n) (.done r))) ∨
        ∃ ans u', (half errorFromHttp3).Step Q u (.task i ans) u')

end Total

/-! ## The way to the result -/

/-- Where the body of `readexactly(n)` is, when `base` had been taken before it got
the guard. -/
def Underway (S base : List UInt8) (n : UInt64) (u : World) : Loc → Prop
  | .eofTest => consumed u.log = base ∧ (n.toNat ≤ maxAlloc ∨ u.vars.eof = true)
  | .call buf => consumed u.log = base ++ buf ∧ buf.length ≤ n.toNat ∧
      (buf = [] ∨ base ++ buf <+: S)
  | .eofStore r => ∃ buf, r = .error (newStreamIncompleteReadError n buf) ∧
      base ++ buf = S ∧ buf.length < n.toNat

/-- The same of its task. -/
def OnCourse (S base : List UInt8) (n : UInt64) (u : World) : Task Op Loc Ret → Prop
  | .call op pc => op = .readexactly n ∧
      match pc with
      | .running l | .suspended l => Underway S base n u l
      | .built r | .done r => ReadsExactly n (S.drop base.length) u r
      | .dropped => True
      | _ => False
  | .exit _ _ => False

/-- How many steps the task has left at most. -/
def remaining (n : UInt64) : Task Op Loc Ret → ℕ
  | .call _ (.running .eofTest) => 4 + n.toNat
  | .call _ (.running (.call buf)) => 3 + (n.toNat - buf.length)
  | .call _ (.running (.eofStore _)) => 2
  | .call _ (.built _) => 1
  | _ => 0

def going : Task Op Loc Ret → Bool
  | .call _ (.running _) | .call _ (.built _) | .call _ (.done _) => true
  | _ => false

section Course

variable {errorFromHttp3 : ErrorFromHttp3} {Q : Answers Event}
  {S base buf : List UInt8} {n : UInt64} {i : ℕ} {t t' : Task Op Loc Ret}
  {ans : Option Event} {u u' : World} {l : Action Op Event Empty} {loc : Loc}
  {beat : Beat Loc Ret} {r : Ret} {v' : Flags} {sh : Shared Event Flags}

theorem ReadsExactly.mono {rest : List UInt8} (h : ReadsExactly n rest u r)
    (heof : u.vars.eof = true → u'.vars.eof = true) : ReadsExactly n rest u' r where
  full := h.full
  short hlt := ⟨(h.short hlt).1, heof (h.short hlt).2⟩

theorem readsExactly_of_full (hfull : n.toNat ≤ buf.length)
    (hroom : buf.length ≤ n.toNat) (hnext : buf = [] ∨ base ++ buf <+: S) :
    ReadsExactly n (S.drop base.length) u (.ok (.bytes buf)) := by
  have hlength : buf.length = n.toNat := Nat.le_antisymm hroom hfull
  have hprefix : buf <+: S.drop base.length := by
    rcases hnext with rfl | ⟨rest, rfl⟩
    · exact List.nil_prefix
    · simp
  obtain ⟨rest, hrest⟩ := hprefix
  constructor
  · intro _
    rw [← hrest, ← hlength, List.take_left]
  · intro hlt
    rw [← hrest, List.length_append] at hlt
    omega

theorem readsExactly_of_end (hall : base ++ buf = S) (hlt : buf.length < n.toNat)
    (heof : u.vars.eof = true) : ReadsExactly n (S.drop base.length) u
      (.error (newStreamIncompleteReadError n buf)) := by
  have hrest : S.drop base.length = buf := by rw [← hall, List.drop_left]
  rw [hrest]
  exact ⟨fun hfull => absurd hfull (by omega), fun _ => ⟨⟨_, rfl⟩, heof⟩⟩

theorem ne_zero_of_room {k : ℕ} (hroom : k < n.toNat) : n ≠ 0 :=
  testsEof_readexactly.mp (testsEof_of_room hroom)

/-- A step of the body stays on course. -/
theorem onCourse_of_bodyMove (hQ : FinishedPeer Q S) (hans : ∀ e ∈ ans, Q u.log e)
    (hlog : u'.log = u.log ++ ans.toList)
    (h : BodyMove errorFromHttp3 u.vars (.readexactly n) loc ans v' beat)
    (hv : u'.vars = v') (hend : u.vars.eof = true → consumed u.log = S)
    (hordered : loc.isCall = true → n ≠ 0 → ¬ Seen Event.unordered u.log)
    (hloc : Underway S base n u loc) :
    OnCourse S base n u' (.call (.readexactly n) beat.pc) := by
  cases h with
  | seesEof _ ht hset =>
      have hn : n ≠ 0 := testsEof_readexactly.mp ht
      have hpos : 0 < n.toNat := by
        rw [Nat.pos_iff_ne_zero]
        exact fun hzero => hn (UInt64.toNat_inj.mp hzero)
      obtain rfl : base = S := hloc.1.symm.trans (hend hset)
      exact ⟨rfl, readsExactly_of_end (List.append_nil base) hpos (hv ▸ hset)⟩
  | tests _ ht =>
      have hsmall : n.toNat ≤ maxAlloc := by
        by_contra hlarge
        have hset := hloc.2.resolve_left hlarge
        have hunset := ht (testsEof_of_room (not_le.mp hlarge))
        rw [hset] at hunset
        cases hunset
      have hcall : (afterTest (.readexactly n)) = .more (.call []) := by
        simp only [afterTest, if_neg (Nat.not_lt.mpr hsmall)]
      rw [hcall]
      refine ⟨rfl, ?_, Nat.zero_le _, Or.inl rfl⟩
      rw [hlog, consumed_append, hloc.1]
      simp
  | exactFull n buf hfull =>
      exact ⟨rfl, readsExactly_of_full hfull hloc.2.1 hloc.2.2⟩
  | exactPends n buf hroom =>
      refine ⟨rfl, ?_, hloc.2⟩
      rw [hlog, consumed_append, hloc.1]
      simp [Event.bytes]
  | exactReads n buf data hroom =>
      obtain ⟨-, hlength, hnext⟩ :=
        hQ.exact (hans _ rfl) (hordered rfl (ne_zero_of_room hroom))
      refine ⟨rfl, ?_, ?_, Or.inr ?_⟩
      · rw [hlog, consumed_append, hloc.1]
        simp [Event.bytes]
      · rw [List.length_append]
        omega
      · rw [← List.append_assoc, ← hloc.1]
        exact hnext
  | exactEnds n buf hroom =>
      have hall : consumed u.log = S :=
        hQ.exactEnd (hans _ rfl) (hordered rfl (ne_zero_of_room hroom))
      exact ⟨rfl, buf, rfl, hloc.1.symm.trans hall, hroom⟩
  | exactFails n buf e hroom =>
      exact absurd (hQ.exactFails (hans _ rfl)) (hordered rfl (ne_zero_of_room hroom))
  | storesEof _ r =>
      obtain ⟨buf, rfl, hall, hlt⟩ := hloc
      exact ⟨rfl, readsExactly_of_end hall hlt (by rw [hv])⟩
  | chunkPends _ _ _ hop | chunkReads _ _ _ _ hop | chunkEnds _ _ _ hop
  | chunkFails _ _ _ _ hop =>
      rcases hop with ⟨_, _, hop, -⟩ | ⟨hop, -⟩ <;> cases hop

/-- Where all bytes have arrived, a step of the body comes closer to the result
and does not wait. -/
theorem remaining_of_bodyMove (hQ : FinishedPeer Q S) (hans : ∀ e ∈ ans, Q u.log e)
    (harrived : Arrived Q)
    (h : BodyMove errorFromHttp3 u.vars (.readexactly n) loc ans v' beat)
    (hordered : loc.isCall = true → n ≠ 0 → ¬ Seen Event.unordered u.log) :
    (∀ l, beat ≠ .pend l) ∧ remaining n (.call (.readexactly n) beat.pc) <
      remaining n (.call (.readexactly n) (.running loc)) := by
  cases h with
  | seesEof | exactFull | exactEnds | exactFails | storesEof =>
      refine ⟨by simp, ?_⟩
      simp only [remaining, Beat.pc]
      omega
  | tests _ ht =>
      rcases afterTest_cases (.readexactly n) with h | ⟨_, hop, -⟩ | ⟨_, _, -, h⟩
      · rw [h]
        refine ⟨by simp, ?_⟩
        simp only [remaining, Beat.pc, List.length_nil]
        omega
      · cases hop
      · rw [h]
        refine ⟨by simp, ?_⟩
        simp only [remaining, Beat.pc]
        omega
  | exactPends n buf hroom => exact absurd (hans _ rfl) (harrived _ _)
  | exactReads n buf data hroom =>
      obtain ⟨hdata, -⟩ := hQ.exact (hans _ rfl) (hordered rfl (ne_zero_of_room hroom))
      have hpos : 0 < data.length := List.length_pos_iff.mpr hdata
      refine ⟨by simp, ?_⟩
      simp only [remaining, Beat.pc, List.length_append]
      omega
  | chunkPends _ _ _ hop | chunkReads _ _ _ _ hop | chunkEnds _ _ _ hop
  | chunkFails _ _ _ _ hop =>
      rcases hop with ⟨_, _, hop, -⟩ | ⟨hop, -⟩ <;> cases hop

theorem Underway.mono (h : Underway S base n u loc)
    (hlog : u'.log = u.log) (heof : u.vars.eof = true → u'.vars.eof = true) :
    Underway S base n u' loc := by
  cases loc with
  | eofTest => exact ⟨hlog ▸ h.1, h.2.imp_right heof⟩
  | call buf => exact ⟨hlog ▸ h.1, h.2⟩
  | eofStore r => exact h

theorem onCourse_of_taskMove (hQ : FinishedPeer Q S) (hcalm : Calm u)
    (hw : Settled S u) (hans : ∀ e ∈ ans, Q u.log e) (hi : u.tasks[i]? = some t)
    (h : TaskMove (half errorFromHttp3) i u.toShared t ans t' sh)
    (hsh : u'.toShared = sh) (ht : OnCourse S base n u t) :
    OnCourse S base n u' t' ∧ (Arrived Q → going t = true → going t' = true ∧
      remaining n t' < remaining n t) := by
  cases h with
  | exit b h => exact ht.elim
  | call op h =>
      obtain ⟨rfl, hpc⟩ := ht
      have hsame : sh = u.toShared →
          ∀ {l}, Underway S base n u l → Underway S base n u' l := by
        rintro rfl l hl
        exact hl.mono (congrArg Shared.log hsh) (by rw [hsh]; exact id)
      cases h with
      | works loc ans v beat hb =>
          have hordered : loc.isCall = true → n ≠ 0 → ¬ Seen Event.unordered u.log := by
            intro hcall hn
            have hplaced := hw.placed i _ _ loc hi rfl
            cases loc with
            | call buf => exact (hplaced (testsEof_readexactly.mpr hn)).2 rfl
            | _ => cases hcall
          have hmove := bodyMove_of_body hb
          refine ⟨onCourse_of_bodyMove hQ hans (by rw [hsh]; rfl) hmove (by rw [hsh])
            hw.eof hordered hpc, fun harrived _ => ?_⟩
          obtain ⟨hgoes, hlt⟩ := remaining_of_bodyMove hQ hans harrived hmove hordered
          refine ⟨?_, hlt⟩
          cases beat with
          | pend l => exact absurd rfl (hgoes l)
          | _ => rfl
      | suspendedUnset l hc => exact ⟨⟨rfl, hsame rfl hpc⟩, fun _ hgoing => by cases hgoing⟩
      | suspendedSet l hset =>
          rw [hcalm.unset] at hset
          cases hset
      | returns r =>
          refine ⟨⟨rfl, ReadsExactly.mono hpc ?_⟩, fun _ _ => ⟨rfl, Nat.zero_lt_one⟩⟩
          rw [hsh]
          exact id
      | _ => exact hpc.elim

theorem onCourse_of_dropMove {sh' : Shared Event Flags} (u' : World)
    (h : DropMove (half errorFromHttp3) i sh t t' sh') (ht : OnCourse S base n u t) :
    OnCourse S base n u' t' ∧ going t = false := by
  cases h with
  | callSuspended op l => exact ⟨⟨ht.1, trivial⟩, rfl⟩
  | callSpawned | callWaiting | callCloseWaiting => exact ht.2.elim
  | exitSpawned | exitWaiting => exact ht.elim

theorem OnCourse.other (ht : OnCourse S base n u t)
    (hlog : t.holds = true → u'.log = u.log)
    (heof : u.vars.eof = true → u'.vars.eof = true) : OnCourse S base n u' t := by
  cases t with
  | exit b pc => exact ht
  | call op pc =>
      obtain ⟨rfl, hpc⟩ := ht
      refine ⟨rfl, ?_⟩
      cases pc with
      | running l | suspended l => exact Underway.mono hpc (hlog rfl) heof
      | built r | done r => exact ReadsExactly.mono hpc heof
      | _ => exact hpc

theorem onCourse_step (hQ : FinishedPeer Q S) (hx : Exclusive u) (hcalm : Calm u)
    (hw : Settled S u) (h : (half errorFromHttp3).Step Q u l u')
    (hi : u.tasks[i]? = some t) (ht : OnCourse S base n u t) :
    ∃ t', u'.tasks[i]? = some t' ∧ OnCourse S base n u' t' ∧
      (Arrived Q → going t = true → going t' = true ∧
        remaining n t' + (own i l).toNat ≤ remaining n t) := by
  rcases h.task_cases hi with ⟨ans, t', rfl, hi', hm⟩ | ⟨t', rfl, hi', hm⟩ |
    ⟨hl, hd, hi'⟩
  · obtain ⟨hcourse, hfalls⟩ := onCourse_of_taskMove hQ hcalm hw h.2 hi hm rfl ht
    refine ⟨t', hi', hcourse, fun harrived hgoing => ?_⟩
    obtain ⟨hgoes, hlt⟩ := hfalls harrived hgoing
    simp only [own, decide_true, Bool.toNat_true]
    exact ⟨hgoes, hlt⟩
  · obtain ⟨hcourse, hstill⟩ := onCourse_of_dropMove u' hm ht
    refine ⟨t', hi', hcourse, fun _ hgoing => ?_⟩
    rw [hstill] at hgoing
    cases hgoing
  · refine ⟨t, hi', ht.other (fun hholds => (hx.frame h hi hholds hl hd).2)
      (eof_of_step h), fun _ hgoing => ⟨hgoing, ?_⟩⟩
    have hother : own i l = false := by
      cases l with
      | task j ans => exact decide_eq_false fun hji => hl ans (by rw [hji])
      | _ => rfl
    simp [hother]

/-- In front of `readexactly(n)` everything is in order, and it is on course. -/
structure Course (errorFromHttp3 : ErrorFromHttp3) (Q : Answers Event)
    (S base : List UInt8) (n : UInt64) (i : ℕ) (u : World) : Prop where
  reach : Reachable ((half errorFromHttp3).Step Q) new u
  calm : Calm u
  settled : Settled S u
  task : ∃ t, u.tasks[i]? = some t ∧ OnCourse S base n u t

theorem Course.step (hQ : FinishedPeer Q S)
    (h : (half errorFromHttp3).Step Q u l u') (hK : Undisturbed u l)
    (hu : Course errorFromHttp3 Q S base n i u) :
    Course errorFromHttp3 Q S base n i u' := by
  have hx : Exclusive u := exclusive_of_reachable hu.reach
  obtain ⟨t, hi, ht⟩ := hu.task
  obtain ⟨t', hi', ht', -⟩ := onCourse_step hQ hx hu.calm hu.settled h hi ht
  exact ⟨hu.reach.tail h, calm_step h hK hu.calm,
    settled_step hQ hx (eofHeeded_of_reachable hu.reach) hu.calm h hK hu.settled,
    t', hi', ht'⟩

def stepsLeft (n : UInt64) (i : ℕ) (u : World) : ℕ :=
  u.tasks[i]?.elim 0 (remaining n)

/-- Where everything has arrived, each step of the task uses one of those that it
has left, and the task never waits. -/
theorem Course.step_arrived (hQ : FinishedPeer Q S) (harrived : Arrived Q)
    (h : (half errorFromHttp3).Step Q u l u') (hK : Undisturbed u l)
    (hu : Course errorFromHttp3 Q S base n i u ∧ ∃ t ∈ u.tasks[i]?, going t = true) :
    (Course errorFromHttp3 Q S base n i u' ∧ ∃ t ∈ u'.tasks[i]?, going t = true) ∧
      stepsLeft n i u' + (own i l).toNat ≤ stepsLeft n i u := by
  obtain ⟨hcourse, t, hi, hgoing⟩ := hu
  obtain ⟨t₁, hi₁, ht⟩ := hcourse.task
  obtain rfl := Option.some.inj (hi₁.symm.trans hi)
  obtain ⟨t', hi', -, hfalls⟩ := onCourse_step hQ (exclusive_of_reachable hcourse.reach)
    hcourse.calm hcourse.settled h hi ht
  obtain ⟨hgoes, hle⟩ := hfalls harrived hgoing
  refine ⟨⟨hcourse.step hQ h hK, t', hi', hgoes⟩, ?_⟩
  rw [stepsLeft, stepsLeft, hi', hi₁]
  exact hle

theorem done_or_step (hA : Answering Q) (hi : u.tasks[i]? = some t)
    (ht : OnCourse S base n u t) (hgoing : going t = true) :
    (∃ r, u.tasks[i]? = some (.call (.readexactly n) (.done r))) ∨
      ∃ ans u', (half errorFromHttp3).Step Q u (.task i ans) u' := by
  cases t with
  | exit b pc => cases hgoing
  | call op pc =>
      obtain ⟨rfl, -⟩ := ht
      cases pc with
      | done r => exact Or.inl ⟨r, hi⟩
      | running l | built r =>
          exact Or.inr (exists_step_of_task (responsive hA) hi rfl fun hw => by cases hw)
      | _ => cases hgoing

end Course

/-! ## Exactly the lengths for which it is total -/

section Iff

variable {errorFromHttp3 : ErrorFromHttp3} {Q : Answers Event}
  {S : List UInt8} {n : UInt64} {i : ℕ} {w : World}
  {tr : List (World × Action Op Event Empty)}

theorem course_of_run (hQ : FinishedPeer Q S)
    (h : Run ((half errorFromHttp3).Step Q) new tr w) (hK : Along Undisturbed tr)
    (hi : w.tasks[i]? = some (.call (.readexactly n) (.running .eofTest)))
    (hn : n.toNat ≤ maxAlloc ∨ w.vars.eof = true) :
    Course errorFromHttp3 Q S (consumed w.log) n i w := by
  obtain ⟨hcalm, hsettled⟩ := settled_of_undisturbed hQ h hK
  exact ⟨h.reachable, hcalm, hsettled, _, hi, rfl, rfl, hn⟩

theorem total_of_small (hQ : FinishedPeer Q S) (hA : Answering Q)
    (h : Run ((half errorFromHttp3).Step Q) new tr w) (hK : Along Undisturbed tr)
    (hi : w.tasks[i]? = some (.call (.readexactly n) (.running .eofTest)))
    (hn : n.toNat ≤ maxAlloc ∨ w.vars.eof = true) :
    Total errorFromHttp3 Q S w i n where
  result := by
    intro tr' u r hrun hK' hdone
    have hcourse := hrun.invariant (I := Course errorFromHttp3 Q S (consumed w.log) n i)
      (fun _ _ _ hK hstep => Course.step hQ hstep hK) hK' (course_of_run hQ h hK hi hn)
    obtain ⟨t, hi', ht⟩ := hcourse.task
    obtain rfl := Option.some.inj (hdone.symm.trans hi')
    exact ht.2
  returns := by
    intro harrived
    refine ⟨stepsLeft n i w, ?_⟩
    intro tr' u hrun hK'
    obtain ⟨⟨hcourse, t, hi', hgoing⟩, hcount⟩ := hrun.count_add_le
      (I := fun u => Course errorFromHttp3 Q S (consumed w.log) n i u ∧
        ∃ t ∈ u.tasks[i]?, going t = true) (μ := stepsLeft n i) (B := own i)
      (fun _ _ _ hK hstep => Course.step_arrived hQ harrived hstep hK) hK'
      ⟨course_of_run hQ h hK hi hn, _, hi, rfl⟩
    obtain ⟨t₁, hi₁, ht⟩ := hcourse.task
    obtain rfl := Option.some.inj (hi₁.symm.trans hi')
    exact ⟨le_trans (Nat.le_add_right _ _) hcount, done_or_step hA hi₁ ht hgoing⟩

/-- A buffer that cannot be allocated ends in a panic. -/
theorem panics_of_large (errorFromHttp3 : ErrorFromHttp3) (Q : Answers Event)
    (hlarge : maxAlloc < n.toNat) (hunset : w.vars.eof = false)
    (hi : w.tasks[i]? = some (.call (.readexactly n) (.running .eofTest))) :
    ∃ tr u, Run ((half errorFromHttp3).Step Q) w tr u ∧ Along Undisturbed tr ∧
      u.tasks[i]? = some (.call (.readexactly n)
        (.done (.error capacityOverflow))) := by
  have hallocates : (half errorFromHttp3).taskStep i
      (.call (.readexactly n) (.running .eofTest)) none w.toShared =
      some (.call (.readexactly n)
        (.built (.error capacityOverflow)), w.toShared) := by
    simp [Half.taskStep, Half.callStep, half, body, hunset, afterTest, hlarge, Beat.pc,
      Shared.record]
  obtain ⟨v, hfirst, hv⟩ : ∃ v, (half errorFromHttp3).Step Q w (.task i none) v ∧
      v.tasks[i]? = some (.call (.readexactly n)
        (.built (.error capacityOverflow))) :=
    ⟨_, Half.step_task_none hi hallocates, getElem?_set_of_eq_some hi⟩
  exact ⟨_, _, (Run.single hfirst).tail (Half.step_task_none hv rfl),
    by simp [Along, Undisturbed], getElem?_set_of_eq_some hv⟩

/-- On a finished stream that is only read, `readexactly(n)` is total exactly for
the lengths whose buffer can be allocated, and for any length once the flag is
set. -/
theorem readexactly_total_iff (hQ : FinishedPeer Q S) (hA : Answering Q)
    (h : Run ((half errorFromHttp3).Step Q) new tr w) (hK : Along Undisturbed tr)
    (hi : w.tasks[i]? = some (.call (.readexactly n) (.running .eofTest))) :
    Total errorFromHttp3 Q S w i n ↔ n.toNat ≤ maxAlloc ∨ w.vars.eof = true := by
  refine ⟨fun htotal => ?_, total_of_small hQ hA h hK hi⟩
  by_contra hnot
  rw [not_or, not_le, Bool.not_eq_true] at hnot
  obtain ⟨tr', u, hrun, hK', hdone⟩ := panics_of_large errorFromHttp3 Q hnot.1 hnot.2 hi
  have hresult := htotal.result hrun hK' hdone
  rcases Nat.lt_or_ge (left S w).length n.toNat with hshort | hfull
  · obtain ⟨⟨msg, heq⟩, -⟩ := hresult.short hshort
    cases heq
  · cases hresult.full hfull

end Iff

/-- The stream of concrete runs on which the first `read_to_end` takes all that is
left. -/
def intactStream (S : List UInt8) (log : List Event) (e : Event) : Bool :=
  finishedStream S log e &&
    match e with
    | .readToEnd _ (.ready (.ok data)) => consumed log ++ data = S
    | _ => true

theorem intactStream_finishedPeer (S : List UInt8) :
    FinishedPeer (fun log e => intactStream S log e = true) S where
  exact h _ := by
    simp only [intactStream, finishedStream, orderedRead, continues, Bool.and_eq_true,
      decide_eq_true_eq] at h
    exact ⟨h.1.2.2.1.1, h.1.2.2.1.2, h.1.2.2.2⟩
  exactEnd h _ := by
    simp only [intactStream, finishedStream, orderedRead, ends, Bool.and_eq_true,
      decide_eq_true_eq] at h
    exact h.1.2.2
  exactFails h := by
    simp only [intactStream, finishedStream, orderedRead, Bool.and_eq_true,
      decide_eq_true_eq] at h
    exact h.1.1
  chunkEnd h _ := by
    simp only [intactStream, finishedStream, orderedRead, ends, Bool.and_eq_true,
      decide_eq_true_eq] at h
    exact h.1.2.2
  toEnd h _ := by
    simp only [intactStream, Bool.and_eq_true, decide_eq_true_eq] at h
    exact h.2

theorem intactStream_answering (S : List UInt8) :
    Answering fun log e => intactStream S log e = true where
  readChunk log max := by
    obtain ⟨r, hr⟩ := (finishedStream_answering S).readChunk log max
    exact ⟨r, by simpa [intactStream] using hr⟩
  readExact log want := by
    obtain ⟨r, hr⟩ := (finishedStream_answering S).readExact log want
    exact ⟨r, by simpa [intactStream] using hr⟩
  readToEnd log limit := ⟨.pending, rfl⟩
  receivedReset log := ⟨.pending, rfl⟩
  stop log code := by
    obtain ⟨ok, hok⟩ := (finishedStream_answering S).stop log code
    exact ⟨ok, by simpa [intactStream] using hok⟩

/-- A read has taken the first byte and another one has been dropped while it
waited, when `readexactly(n)` gets the guard. -/
def beforeExact (n : UInt64) : List (Action Op Event Empty) :=
  startCall (.read 1 none) 0 ++
    [.task 0 (some (.readChunk 1 (.ready (.ok (some [1]))))), .task 0 none] ++
  startCall .anext 1 ++ [.task 1 (some (.readChunk 65536 .pending)), .drop 1] ++
  [.call (.readexactly n), .task 2 none, .task 2 none]

/-- It is total for two bytes. -/
theorem readexactly_two_total :
    Total noCodes (fun log e => intactStream [1, 2, 3] log e = true) [1, 2, 3]
      ((half noCodes).after (intactStream [1, 2, 3]) new (beforeExact 2)) 2 2 := by
  have hrun : Run ((half noCodes).Step fun log e => intactStream [1, 2, 3] log e = true)
      new _ ((half noCodes).after (intactStream [1, 2, 3]) new (beforeExact 2)) :=
    Half.run_after (by decide)
  have hiff := readexactly_total_iff (i := 2) (n := 2)
    (intactStream_finishedPeer [1, 2, 3]) (intactStream_answering [1, 2, 3]) hrun
    (by decide) rfl
  exact hiff.mpr (Or.inl (by decide))

def tooLarge : UInt64 := 0x8000000000000000

/-- It is not for `2 ^ 63` bytes. -/
theorem readexactly_large_panics :
    ¬ ∀ {tr w i n}, Run ((half noCodes).Step fun log e =>
        intactStream [1, 2, 3] log e = true) new tr w → Along Undisturbed tr →
      w.tasks[i]? = some (.call (.readexactly n) (.running .eofTest)) →
      Total noCodes (fun log e => intactStream [1, 2, 3] log e = true) [1, 2, 3] w i n := by
  intro h
  have hbefore : Run ((half noCodes).Step fun log e => intactStream [1, 2, 3] log e = true)
      new _ ((half noCodes).after (intactStream [1, 2, 3]) new (beforeExact tooLarge)) :=
    Half.run_after (by decide)
  have htotal := h (i := 2) (n := tooLarge) hbefore (by decide) rfl
  obtain ⟨tr, u, hrun, hK, hdone⟩ := panics_of_large noCodes
    (fun log e => intactStream [1, 2, 3] log e = true) (n := tooLarge) (i := 2)
    (w := (half noCodes).after (intactStream [1, 2, 3]) new (beforeExact tooLarge))
    (by decide) rfl rfl
  obtain ⟨⟨msg, heq⟩, -⟩ := (htotal.result hrun hK hdone).short (by decide)
  cases heq

end WebTransport.RecvStream
