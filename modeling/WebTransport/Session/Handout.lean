import WebTransport.Session.Model

/-!
# What a session hands out

Streams and datagrams come in at one end of a session and go out at the other.  They
go out to awaitables, many of which may wait for the same thing, and some of which
are cancelled meanwhile.  What the QUIC session has yielded is what the awaitables
have returned, each item to one of them.
-/

namespace WebTransport.Session

open Support Wrapper
open scoped List

/-- What goes from one end of a session to the other. -/
inductive Item
  | bi (id : ℕ)
  | uni (id : ℕ)
  | datagram (data : List UInt8)
  deriving DecidableEq, Repr

/-- What a call on the QUIC session has sent off. -/
def Event.given? : Event → Option Item
  | .openBi (.ready (.ok s)) => some (.bi s.id)
  | .openUni (.ready (.ok s)) => some (.uni s.id)
  | .sendDatagram data (.ok ()) => some (.datagram data)
  | _ => none

/-- What a call on the QUIC session has yielded. -/
def Event.taken? : Event → Option Item
  | .acceptBi (.ready (.ok s)) => some (.bi s.id)
  | .acceptUni (.ready (.ok s)) => some (.uni s.id)
  | .readDatagram (.ready (.ok data)) => some (.datagram data)
  | _ => none

/-- The stream that an awaitable has opened and returned. -/
def Task.given? (t : Task) : Option Item :=
  match t.op, t.pc with
  | .openBi, .done (.ok (.streams s)) => some (.bi s.id)
  | .openUni, .done (.ok (.sendStream s)) => some (.uni s.id)
  | _, _ => none

/-- The stream or the datagram that an awaitable has waited for and returned. -/
def Task.taken? (t : Task) : Option Item :=
  match t.op, t.pc with
  | .acceptBi, .done (.ok (.streams s)) => some (.bi s.id)
  | .acceptUni, .done (.ok (.recvStream s)) => some (.uni s.id)
  | .receiveDatagram, .done (.ok (.bytes data)) => some (.datagram data)
  | _, _ => none

/-- The datagram of a call that has returned. -/
def Action.given? : Action → Option Item
  | .sendDatagram data (.ok ()) => some (.datagram data)
  | _ => none

/-! ## Every item to one awaitable -/

/-- How the items of the calls on the QUIC session (`e`) are divided among the tasks
(`t`) and the synchronous calls (`l`). -/
structure Divides (errorFromHttp3 : ErrorFromHttp3) (e : Event → Option Item)
    (t : Task → Option Item) (l : Action → Option Item) : Prop where
  pending : ∀ op pc, pc.pending = true → t ⟨op, pc⟩ = none
  dropped : ∀ op, t ⟨op, .dropped⟩ = none
  task : ∀ {op pc ans pc'}, (oneCall errorFromHttp3).TaskMove op pc ans pc' →
    t ⟨op, pc'⟩ = ans.bind e
  inTask : ∀ i ans, l (.task i ans) = none
  outside : ∀ a, (∀ i ans, a ≠ .task i ans) → a.event.bind e = l a

section Handout

variable {errorFromHttp3 : ErrorFromHttp3} {Q : Answers Event}
  {e : Event → Option Item} {t : Task → Option Item} {l : Action → Option Item}
  {w w' : World} {a : Action} {tr : List (World × Action)}

/-- A step hands out what it takes. -/
theorem divided_step (hd : Divides errorFromHttp3 e t l)
    (h : Step errorFromHttp3 Q w a w') :
    (w'.tasks.filterMap t ++ (l a).toList).Perm
      (w.tasks.filterMap t ++ (a.event.bind e).toList) := by
  cases h.move with
  | call op =>
      rw [hd.outside _ (by simp), List.filterMap_append,
        List.filterMap_cons_none (hd.pending op .spawned rfl), List.filterMap_nil,
        List.append_nil]
  | datagram | datagramFails | close | isOpen | isClosed =>
      rw [hd.outside _ (by simp)]
  | @task i ans old pc hi hm =>
      have hset := filterMap_set_perm (a := ({ old with pc := pc } : Task)) hi
        (hd.pending old.op old.pc hm.pending)
      rw [hd.task hm] at hset
      rw [hd.inTask, Option.toList_none, List.append_nil]
      exact hset
  | @drop i old hi hpc =>
      have hpending : old.pc.pending = true := by
        rcases hpc with hpc | hpc <;> rw [hpc] <;> rfl
      have hset := filterMap_set_perm (a := ({ old with pc := .dropped } : Task)) hi
        (hd.pending old.op old.pc hpending)
      rw [hd.dropped, Option.toList_none, List.append_nil] at hset
      rw [hd.outside _ (by simp)]
      exact hset.append_right _

/-- In a run the items of the calls on the QUIC session are those that the tasks and
the synchronous calls have returned. -/
theorem divided_of_run (hd : Divides errorFromHttp3 e t l)
    (h : Run (Step errorFromHttp3 Q) new tr w) :
    (w.log.filterMap e).Perm
      (w.tasks.filterMap t ++ tr.filterMap fun p => l p.2) := by
  induction h with
  | refl => exact List.Perm.refl _
  | @tail tr u v a hrun hstep ih =>
      rw [log_of_step hstep, List.filterMap_append, filterMap_toList,
        List.filterMap_append, ← List.append_assoc]
      have hlast : [(u, a)].filterMap (fun p => l p.2) = (l a).toList :=
        filterMap_toList (fun p : World × Action => l p.2) (some (u, a))
      rw [hlast]
      calc u.log.filterMap e ++ (a.event.bind e).toList
        _ ~ (u.tasks.filterMap t ++ tr.filterMap fun p => l p.2) ++
            (a.event.bind e).toList := ih.append_right _
        _ ~ (u.tasks.filterMap t ++ (a.event.bind e).toList) ++
            tr.filterMap fun p => l p.2 := by
          rw [List.append_assoc, List.append_assoc]
          exact List.perm_append_comm.append_left _
        _ ~ (v.tasks.filterMap t ++ (l a).toList) ++ tr.filterMap fun p => l p.2 :=
          (divided_step hd hstep).symm.append_right _
        _ ~ v.tasks.filterMap t ++ tr.filterMap (fun p => l p.2) ++ (l a).toList := by
          rw [List.append_assoc, List.append_assoc]
          exact List.perm_append_comm.append_left _

/-! ### What is taken and what is given -/

theorem taken_divides :
    Divides errorFromHttp3 Event.taken? Task.taken? fun _ => none where
  pending op pc hpc := by
    cases pc with
    | done r => cases hpc
    | _ => cases op <;> rfl
  dropped op := by cases op <;> rfl
  task := by
    intro op pc ans pc' h
    cases h with
    | returns v hop =>
        obtain ⟨rfl, rfl⟩ := first_eq_returns hop
        rfl
    | calls e hop =>
        obtain ⟨rfl, rfl⟩ := first_eq_calls hop
        rfl
    | polls pc e r hpc hfirst hr =>
        cases op <;> cases e <;> cases hr <;> rename_i answer <;>
          rcases answer with _ | _ | _ <;> rfl
  inTask _ _ := rfl
  outside a ha := by
    cases a with
    | task i ans => exact absurd rfl (ha i ans)
    | _ => rfl

theorem given_divides :
    Divides errorFromHttp3 Event.given? Task.given? Action.given? where
  pending op pc hpc := by
    cases pc with
    | done r => cases hpc
    | _ => cases op <;> rfl
  dropped op := by cases op <;> rfl
  task := by
    intro op pc ans pc' h
    cases h with
    | returns v hop =>
        obtain ⟨rfl, rfl⟩ := first_eq_returns hop
        rfl
    | calls e hop =>
        obtain ⟨rfl, rfl⟩ := first_eq_calls hop
        rfl
    | polls pc e r hpc hfirst hr =>
        cases op <;> cases e <;> cases hr <;> rename_i answer <;>
          rcases answer with _ | _ | _ <;> rfl
  inTask _ _ := rfl
  outside a ha := by
    cases a with
    | task i ans => exact absurd rfl (ha i ans)
    | sendDatagram data r => cases r <;> rfl
    | _ => rfl

end Handout

end WebTransport.Session
