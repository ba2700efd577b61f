import WebTransport.RecvStream.Model
import WebTransport.Wrapper.Exclusion

/-!
# The end of the stream is remembered

The flag is set by an operation that has seen the end, and never unset.  An
operation that gets the guard later finds it set, whoever has set it, and
answers without a call on the QUIC stream.
-/

namespace WebTransport.RecvStream

open Support Wrapper

/-! ## The answers -/

/-- The QUIC stream reports the end. -/
def Event.reportsEnd : Event → Bool
  | .readChunk _ (.ready (.ok none)) => true
  | .readExact _ (.ready (.ok none)) => true
  | .readToEnd _ (.ready (.ok _)) => true
  | _ => false

/-- Task `i` has been told the end by the QUIC stream. -/
def SawEnd (tr : List (World × Action Op Event Empty)) (i : ℕ) : Prop :=
  ∃ u e, (u, .task i (some e)) ∈ tr ∧ e.reportsEnd = true

/-- What an operation gives at the end of the stream. -/
inductive SaysEnd : Op → Ret → Prop
  | read (n : Int64) (limit : Option UInt64) :
      SaysEnd (.read n limit) (.ok (.bytes []))
  | anext : SaysEnd .anext (.error .stopAsyncIteration)
  | readexactly (n : UInt64) (msg : String) (hn : n ≠ 0) :
      SaysEnd (.readexactly n) (.error (.streamIncompleteReadError msg n []))

theorem saysEnd_eofAnswer {op : Op} (ht : testsEof op = true) :
    SaysEnd op (eofAnswer op) := by
  cases op with
  | read n limit => exact .read n limit
  | readexactly n => exact .readexactly n _ (testsEof_readexactly.mp ht)
  | anext => exact .anext
  | waitClosed => cases ht

section Statements

variable (errorFromHttp3 : ErrorFromHttp3) (Q : Answers Event)

/-- Task `i` gives the answer for the end: it makes no call on the QUIC stream,
its own steps bring it to a result, and its result is that answer. -/
structure AnswersEnd (u : World) (i : ℕ) (op : Op) : Prop where
  silent : ∀ e u', ¬ (half errorFromHttp3).Step Q u (.task i (some e)) u'
  comes : ∃ tr u' r, Run ((half errorFromHttp3).Step Q) u tr u' ∧
    Along (fun _ l => l = .task i none) tr ∧
    u'.tasks[i]? = some (.call op (.done r)) ∧ SaysEnd op r
  answer : ∀ r, u.tasks[i]? = some (.call op (.done r)) → SaysEnd op r

/-- The flag for the end of the stream is set by who has seen the end, at once after
it has, is kept, and decides what later reads give. -/
structure EofSticky : Prop where
  setBy : ∀ {tr w l w'}, Run ((half errorFromHttp3).Step Q) new tr w →
    (half errorFromHttp3).Step Q w l w' → w.vars.eof = false →
    w'.vars.eof = true → ∃ i op r, l = .task i none ∧
      w.tasks[i]? = some (.call op (.running (.eofStore r))) ∧ SawEnd tr i
  sets : ∀ {tr w i}, Run ((half errorFromHttp3).Step Q) new tr w → SawEnd tr i →
    w.vars.eof = true ∨ ∃ op r u,
      w.tasks[i]? = some (.call op (.running (.eofStore r))) ∧
      (half errorFromHttp3).Step Q w (.task i none) u ∧ u.vars.eof = true
  kept : ∀ {w u}, Reachable ((half errorFromHttp3).Step Q) w u →
    w.vars.eof = true → u.vars.eof = true
  answered : ∀ {w u i op pc}, Reachable ((half errorFromHttp3).Step Q) new w →
    w.vars.eof = true → Reachable ((half errorFromHttp3).Step Q) w u →
    i ∉ w.entered → i ∈ u.entered → u.tasks[i]? = some (.call op pc) →
    testsEof op = true → AnswersEnd errorFromHttp3 Q u i op

end Statements

/-! ## Who sets the flag -/

section Flag

variable {errorFromHttp3 : ErrorFromHttp3} {Q : Answers Event} {i : ℕ}
  {sh sh' : Shared Event Flags} {t t' : Task Op Loc Ret} {ans : Option Event}
  {w w' u : World} {l : Action Op Event Empty}
  {tr : List (World × Action Op Event Empty)} {op : Op} {r : Ret}

theorem flag_of_taskMove (h : TaskMove (half errorFromHttp3) i sh t ans t' sh') :
    sh'.vars = sh.vars ∨ ∃ op r, t = .call op (.running (.eofStore r)) ∧
      ans = none ∧ t' = .call op (.built r) ∧ sh'.vars.eof = true := by
  cases h with
  | exit b h => cases h <;> exact Or.inl rfl
  | call op h =>
      cases h with
      | works loc ans v beat hb =>
          have hb : body errorFromHttp3 op loc sh.vars ans = some (v, beat) := hb
          cases bodyMove_of_body hb with
          | storesEof op r => exact Or.inr ⟨op, r, rfl, rfl, rfl, rfl⟩
          | _ => exact Or.inl rfl
      | _ => exact Or.inl rfl

theorem flag_of_dropMove (h : DropMove (half errorFromHttp3) i sh t t' sh') :
    sh'.vars = sh.vars := by
  cases h <;> rfl

theorem flag_of_pythonMove {py py' : Python Empty}
    (h : PythonMove (half errorFromHttp3) sh py ans py' sh') :
    sh'.vars = sh.vars := by
  cases h with
  | records k => exact k.elim
  | _ => rfl

/-- The step at which the flag is set is that of a body at its store. -/
theorem flag_of_step (h : (half errorFromHttp3).Step Q w l w') :
    w'.vars = w.vars ∨ ∃ i op r, l = .task i none ∧
      w.tasks[i]? = some (.call op (.running (.eofStore r))) ∧
      w'.vars.eof = true := by
  cases h.move with
  | assigns k => exact k.elim
  | python ans hm => exact Or.inl (flag_of_pythonMove hm)
  | drop i hi hm => exact Or.inl (flag_of_dropMove hm)
  | task i ans hi hm =>
      rcases flag_of_taskMove hm with hsame | ⟨op, r, rfl, rfl, -, hset⟩
      · exact Or.inl hsame
      · exact Or.inr ⟨i, op, r, rfl, hi, hset⟩
  | _ => exact Or.inl rfl

theorem eof_of_step (h : (half errorFromHttp3).Step Q w l w')
    (he : w.vars.eof = true) : w'.vars.eof = true := by
  rcases flag_of_step h with hsame | ⟨_, _, _, -, -, hset⟩
  · rw [hsame]
    exact he
  · exact hset

theorem eof_of_reachable (h : Reachable ((half errorFromHttp3).Step Q) w u)
    (he : w.vars.eof = true) : u.vars.eof = true :=
  h.invariant (I := fun u => u.vars.eof = true)
    (fun _ _ _ hstep => eof_of_step hstep) he

def atStore : Task Op Loc Ret → Bool
  | .call _ (.running (.eofStore _)) | .call _ (.suspended (.eofStore _)) => true
  | _ => false

theorem atStore_of_taskMove (h : TaskMove (half errorFromHttp3) i sh t ans t' sh')
    (ht : atStore t' = true) :
    atStore t = true ∨ ∃ e, ans = some e ∧ e.reportsEnd = true := by
  cases h with
  | exit b h => cases ht
  | call op h =>
      cases h with
      | works loc ans v beat hb =>
          have hb : body errorFromHttp3 op loc sh.vars ans = some (v, beat) := hb
          cases bodyMove_of_body hb with
          | endReads | chunkEnds | exactEnds => exact Or.inr ⟨_, rfl, rfl⟩
          | tests op hunset =>
              rcases afterTest_cases op with h | ⟨limit, -, h⟩ | ⟨n, -, -, h⟩ <;>
                (rw [h] at ht; cases ht)
          | _ => cases ht
      | enters ho => cases op <;> cases ht
      | suspendedUnset l hc =>
          cases l with
          | eofStore r => exact Or.inl rfl
          | _ => cases ht
      | _ => cases ht

theorem not_atStore_of_dropMove (h : DropMove (half errorFromHttp3) i sh t t' sh') :
    atStore t' = false := by
  cases h <;> rfl

/-- Whoever is about to set the flag has been told the end. -/
theorem sawEnd_of_atStore (h : Run ((half errorFromHttp3).Step Q) new tr w) :
    ∀ i t, w.tasks[i]? = some t → atStore t = true → SawEnd tr i := by
  induction h with
  | refl => exact fun i t hi => by simp [World.init] at hi
  | @tail tr w w' l _ hstep ih =>
      have hkeep : ∀ {i}, SawEnd tr i → SawEnd (tr ++ [(w, l)]) i := by
        rintro i ⟨u, e, hmem, he⟩
        exact ⟨u, e, List.mem_append_left _ hmem, he⟩
      refine hstep.forall_tasks (fun op ht => by cases ht) (fun b ht => by cases ht)
        ?_ ?_ (fun i t _ _ _ hsaw ht => hkeep (hsaw ht)) ih
      · rintro i ans t t' rfl _ hm hsaw ht'
        rcases atStore_of_taskMove hm ht' with ht | ⟨e, rfl, he⟩
        · exact hkeep (hsaw ht)
        · exact ⟨w, e, List.mem_append_right _ (List.mem_singleton.mpr rfl), he⟩
      · intro i t t' _ _ hm _ ht'
        rw [not_atStore_of_dropMove hm] at ht'
        cases ht'

theorem not_reportsEnd_of_closeCode {e : Event} {code : UInt32}
    (h : e.closeCode = some code) : e.reportsEnd = false := by
  cases e with
  | stop => rfl
  | _ => cases h

theorem storing_of_reportsEnd {e : Event}
    (h : TaskMove (half errorFromHttp3) i sh t (some e) t' sh')
    (he : e.reportsEnd = true) : ∃ op r, t' = .call op (.running (.eofStore r)) := by
  cases h with
  | exit b h =>
      cases h with
      | sendsClose b e hb hcode =>
          rw [not_reportsEnd_of_closeCode hcode] at he
          cases he
      | sendsFinish b e hb hfin => cases hfin
  | call op h =>
      cases h with
      | works loc ans v beat hb =>
          have hb : body errorFromHttp3 op loc sh.vars (some e) = some (v, beat) := hb
          cases bodyMove_of_body hb with
          | endReads | chunkEnds | exactEnds => exact ⟨_, _, rfl⟩
          | _ => cases he
      | closeSends code e hcode =>
          rw [not_reportsEnd_of_closeCode hcode] at he
          cases he

theorem eof_of_storing
    (h : TaskMove (half errorFromHttp3) i sh (.call op (.running (.eofStore r))) ans t' sh') :
    sh'.vars.eof = true := by
  cases h with
  | call op h =>
      cases h with
      | works loc ans v beat hb =>
          have hb : body errorFromHttp3 op (.eofStore r) sh.vars ans = some (v, beat) := hb
          cases bodyMove_of_body hb
          rfl

/-- Whoever has been told the end sets the flag with its next step, or has done so. -/
theorem eof_of_sawEnd (h : Run ((half errorFromHttp3).Step Q) new tr w) :
    SawEnd tr i → w.vars.eof = true ∨
      ∃ op r, w.tasks[i]? = some (.call op (.running (.eofStore r))) := by
  induction h with
  | refl =>
      rintro ⟨_, _, hmem, -⟩
      cases hmem
  | @tail tr w w' l _ hstep ih =>
      rintro ⟨u, e, hmem, he⟩
      rcases List.mem_append.mp hmem with hmem | hlast
      · rcases ih ⟨u, e, hmem, he⟩ with heof | ⟨op, r, hi⟩
        · exact Or.inl (eof_of_step hstep heof)
        · rcases hstep.task_cases hi with ⟨ans, t', rfl, -, hm⟩ | ⟨t', -, -, hm⟩ |
            ⟨-, -, hi'⟩
          · exact Or.inl (eof_of_storing hm)
          · cases hm
          · exact Or.inr ⟨op, r, hi'⟩
      · cases List.mem_singleton.mp hlast
        right
        cases hstep.move with
        | task i ans hi hm =>
            obtain ⟨op, r, rfl⟩ := storing_of_reportsEnd hm he
            exact ⟨op, r, getElem?_set_of_eq_some hi⟩

/-! ## Nobody reads once the flag is set -/

def Loc.isCall : Loc → Bool
  | .call _ => true
  | _ => false

def Reading : Task Op Loc Ret → Prop
  | .call op (.running l) | .call op (.suspended l) =>
      testsEof op = true ∧ l.isCall = true
  | _ => False

theorem inBody_of_reading (h : Reading t) : t.inBody = true := by
  cases t with
  | exit b pc => exact h.elim
  | call op pc => cases pc <;> first | rfl | exact h.elim

theorem reading_of_bodyMove {v v' : Flags} {loc : Loc} {beat : Beat Loc Ret}
    (h : BodyMove errorFromHttp3 v op loc ans v' beat)
    (ht : Reading (.call op beat.pc)) :
    loc.isCall = true ∨ (loc = .eofTest ∧ v.eof = false) := by
  cases h with
  | seesEof | storesEof => exact ht.elim
  | tests op hunset =>
      refine Or.inr ⟨rfl, hunset ?_⟩
      generalize afterTest op = beat at ht
      cases beat with
      | more l | pend l => exact ht.1
      | ready r => exact ht.elim
  | _ => exact Or.inl rfl

theorem reading_of_taskMove (h : TaskMove (half errorFromHttp3) i sh t ans t' sh')
    (ht : Reading t') : Reading t ∨
      ∃ op, t = .call op (.running .eofTest) ∧ sh.vars.eof = false := by
  cases h with
  | exit b h => exact ht.elim
  | call op h =>
      cases h with
      | works loc ans v beat hb =>
          have hb : body errorFromHttp3 op loc sh.vars ans = some (v, beat) := hb
          have htests : testsEof op = true := by
            cases beat with
            | more l | pend l => exact ht.1
            | ready r => exact ht.elim
          exact (reading_of_bodyMove (bodyMove_of_body hb) ht).imp
            (fun hcall => ⟨htests, hcall⟩)
            (fun ⟨hloc, hunset⟩ => ⟨op, by rw [hloc], hunset⟩)
      | enters ho =>
          cases op with
          | waitClosed => cases ht.1
          | _ => exact absurd ht.2 Bool.false_ne_true
      | suspendedUnset l hc => exact Or.inl ht
      | _ => exact ht.elim

theorem not_reading_of_dropMove (h : DropMove (half errorFromHttp3) i sh t t' sh') :
    ¬ Reading t' := by
  cases h <;> exact id

/-- Once the flag is set, no read is at its call. -/
def EofHeeded (w : World) : Prop :=
  w.vars.eof = true → ∀ (i : ℕ) (t : Task Op Loc Ret), w.tasks[i]? = some t →
    ¬ Reading t

theorem eofHeeded_step (hx : Exclusive w)
    (h : (half errorFromHttp3).Step Q w l w') (hw : EofHeeded w) :
    EofHeeded w' := by
  intro _
  rcases flag_of_step h with hsame | ⟨k, op, r, rfl, hk, -⟩
  · have heof : w.vars.eof = true := by rwa [← hsame]
    refine h.forall_tasks (fun op => id) (fun b => id) ?_
      (fun i t t' _ _ hm _ => not_reading_of_dropMove hm)
      (fun i t _ _ _ => id) (hw heof)
    intro i ans t t' _ _ hm hnot ht'
    rcases reading_of_taskMove hm ht' with ht | ⟨_, _, hunset⟩
    · exact hnot ht
    · rw [heof] at hunset
      cases hunset
  · -- nobody else is in a body when the flag is set
    have honly : ∀ (i : ℕ) (t : Task Op Loc Ret), w.tasks[i]? = some t →
        t.inBody = true → i = k := fun i t hi ht =>
      hx.eq_of_holds hi hk (Task.holds_of_inBody ht) rfl
    refine h.forall_tasks (P := fun i t => t.inBody = true → i = k)
      (R := fun _ t => ¬ Reading t) (fun op => id) (fun b => id) ?_
      (fun i t t' _ _ hm _ => not_reading_of_dropMove hm) ?_ honly
    · rintro i ans t t' heq hi hm - ht'
      cases heq
      obtain rfl := Option.some.inj (hk.symm.trans hi)
      rcases reading_of_taskMove hm ht' with ht | ⟨_, ht, -⟩
      · cases ht.2
      · cases ht
    · intro i t _ hl _ hmine ht
      obtain rfl := hmine (inBody_of_reading ht)
      exact hl none rfl

theorem eofHeeded_of_reachable (h : Reachable ((half errorFromHttp3).Step Q) new w) :
    EofHeeded w := by
  have hboth : Exclusive w ∧ EofHeeded w := by
    refine h.invariant (I := fun w => Exclusive w ∧ EofHeeded w) ?_
      ⟨exclusive_init _, fun heof => by cases heof⟩
    intro w l w' hstep hw
    exact ⟨exclusive_step hstep hw.1, eofHeeded_step hw.1 hstep hw.2⟩
  exact hboth.2

theorem bytes_eq_nil_of_bodyMove {v v' : Flags} {loc : Loc} {beat : Beat Loc Ret}
    (h : BodyMove errorFromHttp3 v op loc ans v' beat)
    (hnot : ¬ Reading (.call op (.running loc))) : ∀ e ∈ ans, e.bytes = [] := by
  rintro e he
  cases h with
  | endReads n limit => exact absurd ⟨rfl, rfl⟩ hnot
  | chunkReads op buf data max hop =>
      rcases hop with ⟨n, limit, rfl, -⟩ | ⟨rfl, -⟩
      · exact absurd ⟨rfl, rfl⟩ hnot
      · exact absurd ⟨rfl, rfl⟩ hnot
  | exactReads n buf data hroom =>
      exact absurd ⟨testsEof_of_room hroom, rfl⟩ hnot
  | _ => cases he <;> rfl

theorem bytes_eq_nil_of_taskMove
    (h : TaskMove (half errorFromHttp3) i sh t ans t' sh') (hnot : ¬ Reading t) :
    ∀ e ∈ ans, e.bytes = [] := by
  intro e he
  cases h with
  | call op h =>
      cases h with
      | works loc ans v beat hb =>
          exact bytes_eq_nil_of_bodyMove (bodyMove_of_body hb) hnot e he
      | closeSends code e' hcode =>
          cases he
          exact (takes_nothing_of_closeCode hcode).1
      | _ => cases he
  | exit b h =>
      cases h with
      | sendsClose b e' hb hcode =>
          cases he
          exact (takes_nothing_of_closeCode hcode).1
      | sendsFinish b e' hb hfin => cases hfin
      | _ => cases he

theorem bytes_eq_nil_of_pythonMove {py py' : Python Empty}
    (h : PythonMove (half errorFromHttp3) sh py ans py' sh') :
    ∀ e ∈ ans, e.bytes = [] := by
  intro e he
  cases h with
  | sends code e' hcode =>
      cases he
      exact (takes_nothing_of_closeCode hcode).1
  | applies k => exact k.elim
  | _ => cases he

/-! ## Later reads give the answer for the end -/

/-- The task of a read that has got the guard with the flag set. -/
def AtEnd : Task Op Loc Ret → Prop
  | .call op (.running l) => l = .eofTest ∧ testsEof op = true
  | .call op (.built r) | .call op (.done r) => r = eofAnswer op
  | _ => False

theorem atEnd_of_taskMove (h : TaskMove (half errorFromHttp3) i sh t ans t' sh')
    (heof : sh.vars.eof = true) (ht : AtEnd t) : ans = none ∧ AtEnd t' := by
  cases h with
  | exit b h => exact ht.elim
  | call op h =>
      cases h with
      | works loc ans v beat hb =>
          obtain ⟨rfl, htests⟩ := ht
          have hb : body errorFromHttp3 op .eofTest sh.vars ans = some (v, beat) := hb
          cases bodyMove_of_body hb with
          | seesEof => exact ⟨rfl, rfl⟩
          | tests _ hunset =>
              rw [hunset htests] at heof
              cases heof
      | returns r => exact ⟨rfl, ht⟩
      | _ => exact ht.elim

theorem not_atEnd_of_dropMove (h : DropMove (half errorFromHttp3) i sh t t' sh') :
    ¬ AtEnd t := by
  cases h <;> exact id

def tests : Call Op → Bool
  | .op op => testsEof op
  | .exit _ => false

theorem atEnd_of_enters (h : TaskMove (half errorFromHttp3) i sh t ans t' sh')
    (htests : tests t'.called = true) (hbefore : t.beforeBody = true)
    (hholds : t'.holds = true) : AtEnd t' := by
  cases h with
  | exit b h => cases htests
  | call op h =>
      cases h with
      | enters ho =>
          cases op with
          | waitClosed => cases htests
          | _ => exact ⟨rfl, htests⟩
      | spawnedSet | spawnedUnset | waitingSet | waitingUnset | queues => cases hholds
      | _ => cases hbefore

/-- The reads that have got the guard since `w` are at the end. -/
def LaterAtEnd (w u : World) : Prop :=
  ∀ (i : ℕ) (t : Task Op Loc Ret), u.tasks[i]? = some t → tests t.called = true →
    i ∉ w.entered → i ∈ u.entered → AtEnd t

theorem laterAtEnd_step (hin : Entries u) (h : (half errorFromHttp3).Step Q u l w')
    (heof : u.vars.eof = true) (hu : LaterAtEnd w u) : LaterAtEnd w w' := by
  have hnew : u.tasks.length ∉ w'.entered := by
    intro hmem
    rcases mem_entered_of_step h hmem with hold | ⟨hlt, -⟩
    · exact absurd (hin.lt_length hold) (by omega)
    · omega
  refine h.forall_tasks (fun op _ _ hmem => absurd hmem hnew)
    (fun b _ _ hmem => absurd hmem hnew) ?_ ?_ ?_ hu
  · rintro i ans t t' rfl hi hm ht htests hnot hmem
    rcases hm.entered_cases with ⟨heq, -⟩ | ⟨-, hbefore, -, hholds⟩
    · rw [heq] at hmem
      exact (atEnd_of_taskMove hm heof (ht (hm.called ▸ htests) hnot hmem)).2
    · exact atEnd_of_enters hm htests hbefore hholds
  · rintro i t t' rfl hi hm ht htests hnot hmem
    rw [hm.entered_eq.1] at hmem
    exact absurd (ht (hm.called ▸ htests) hnot hmem) (not_atEnd_of_dropMove hm)
  · intro i t hi hl _ ht htests hnot hmem
    rcases mem_entered_of_step h hmem with hold | ⟨-, ans, rfl⟩
    · exact ht htests hnot hold
    · exact absurd rfl (hl ans)

theorem laterAtEnd_of_reachable
    (hreach : Reachable ((half errorFromHttp3).Step Q) new w)
    (heof : w.vars.eof = true) (h : Reachable ((half errorFromHttp3).Step Q) w u) :
    LaterAtEnd w u := by
  have hall : Reachable ((half errorFromHttp3).Step Q) w u ∧ LaterAtEnd w u := by
    refine h.invariant
      (I := fun u => Reachable ((half errorFromHttp3).Step Q) w u ∧ LaterAtEnd w u)
      ?_ ⟨Reachable.refl, fun i t _ _ hnot hmem => absurd hmem hnot⟩
    rintro u l u' hstep ⟨hu, hlater⟩
    exact ⟨hu.tail hstep, laterAtEnd_step (entries_of_reachable (hreach.trans hu))
      hstep (eof_of_reachable hu heof) hlater⟩
  exact hall.2

theorem exists_answer (heof : w.vars.eof = true) {pc : CallPc Loc Ret}
    (hi : w.tasks[i]? = some (.call op pc)) (ht : AtEnd (.call op pc)) :
    ∃ tr u, Run ((half errorFromHttp3).Step Q) w tr u ∧
      Along (fun _ l => l = .task i none) tr ∧
      u.tasks[i]? = some (.call op (.done (eofAnswer op))) := by
  have hreturns : ∀ {w : World}, w.tasks[i]? = some (.call op (.built (eofAnswer op))) →
      ∃ u, (half errorFromHttp3).Step Q w (.task i none) u ∧
        u.tasks[i]? = some (.call op (.done (eofAnswer op))) := fun hi =>
    ⟨_, Half.step_task_none hi rfl, getElem?_set_of_eq_some hi⟩
  cases pc with
  | done r =>
      obtain rfl : r = eofAnswer op := ht
      exact ⟨[], w, Run.refl, along_nil, hi⟩
  | built r =>
      obtain rfl : r = eofAnswer op := ht
      obtain ⟨u, hstep, hu⟩ := hreturns hi
      exact ⟨_, u, Run.single hstep, along_singleton.mpr rfl, hu⟩
  | running l =>
      obtain ⟨rfl, htests⟩ := ht
      have hsees : (half errorFromHttp3).taskStep i (.call op (.running .eofTest)) none
          w.toShared = some (.call op (.built (eofAnswer op)), w.toShared) := by
        simp [Half.taskStep, Half.callStep, half, body, htests, heof, Beat.pc,
          Shared.record]
      obtain ⟨v, hfirst, hv⟩ : ∃ v, (half errorFromHttp3).Step Q w (.task i none) v ∧
          v.tasks[i]? = some (.call op (.built (eofAnswer op))) :=
        ⟨_, Half.step_task_none hi hsees, getElem?_set_of_eq_some hi⟩
      obtain ⟨u, hstep, hu⟩ := hreturns hv
      exact ⟨_, u, (Run.single hfirst).tail hstep, by simp [Along], hu⟩
  | _ => exact ht.elim

theorem answersEnd_of_atEnd (heof : w.vars.eof = true) {pc : CallPc Loc Ret}
    (hi : w.tasks[i]? = some (.call op pc)) (htests : testsEof op = true)
    (ht : AtEnd (.call op pc)) : AnswersEnd errorFromHttp3 Q w i op where
  silent e u' hstep := by
    cases hstep.move with
    | task i ans hj hm =>
        obtain rfl := Option.some.inj (hi.symm.trans hj)
        cases (atEnd_of_taskMove hm heof ht).1
  comes := by
    obtain ⟨tr, u, hrun, hown, hu⟩ := exists_answer heof hi ht
    exact ⟨tr, u, _, hrun, hown, hu, saysEnd_eofAnswer htests⟩
  answer r hr := by
    obtain rfl : pc = .done r := by simpa using hi.symm.trans hr
    obtain rfl : r = eofAnswer op := ht
    exact saysEnd_eofAnswer htests

end Flag

/-- The end of the stream is sticky and means the same on every read path. -/
theorem eofSticky (errorFromHttp3 : ErrorFromHttp3) (Q : Answers Event) :
    EofSticky errorFromHttp3 Q where
  setBy hrun hstep hunset hset := by
    rcases flag_of_step hstep with hsame | ⟨i, op, r, rfl, hi, -⟩
    · rw [hsame, hunset] at hset
      cases hset
    · exact ⟨i, op, r, rfl, hi, sawEnd_of_atStore hrun i _ hi rfl⟩
  sets hrun hsaw := by
    refine (eof_of_sawEnd hrun hsaw).imp_right ?_
    rintro ⟨op, r, hi⟩
    exact ⟨op, r, _, hi, Half.step_task_none hi rfl, rfl⟩
  kept := eof_of_reachable
  answered hw heof hu hnot hin hi htests :=
    answersEnd_of_atEnd (eof_of_reachable hu heof) hi htests
      (laterAtEnd_of_reachable hw heof hu _ _ hi htests hnot hin)

end WebTransport.RecvStream
