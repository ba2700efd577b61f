import WebTransport.SendStream.Model
import WebTransport.Wrapper.Settling

/-!
# The bodies of the send half come to an end

Every call on the QUIC stream has an answer, so that a body can always go on, and
the loop of `write_all` comes closer to its end with every byte.
-/

namespace WebTransport.SendStream

open Support Wrapper

/-! ## What is assumed of the QUIC stream -/

/-- Every call on the QUIC stream is answered. -/
structure Answering (Q : Answers Event) : Prop where
  write : ∀ log data, ∃ r, Q log (.write data r)
  finish : ∀ log, ∃ ok, Q log (.finish ok)
  reset : ∀ log code, ∃ ok, Q log (.reset code ok)
  stopped : ∀ log, ∃ r, Q log (.stopped r)
  setPriority : ∀ log p, ∃ ok, Q log (.setPriority p ok)

/-- A `write` that succeeds accepts something. -/
def WriteProgress (Q : Answers Event) : Prop :=
  ∀ log data n, Q log (.write data (.ready (.ok n))) → data ≠ [] → 0 < n

/-- No call waits: the session is lost, say. -/
structure Immediate (Q : Answers Event) : Prop where
  write : ∀ log data, ¬ Q log (.write data .pending)
  stopped : ∀ log, ¬ Q log (.stopped .pending)

def size : Op → ℕ
  | .write data => data.length
  | _ => 0

/-- How far a body is from its end. -/
def rank (op : Op) : Loc → ℕ
  | .loadPriority => 4 + size op
  | .compare _ => 3 + size op
  | .setPriority _ => 2 + size op
  | .storeSynced _ => 1 + size op
  | .call sent => size op - sent

section Laws

variable {errorFromHttp3 : ErrorFromHttp3} {Q : Answers Event}

theorem exists_body (hQ : Answering Q) (op : Op) (loc : Loc) (v : Priorities)
    (log : List Event) :
    ∃ ans, (body errorFromHttp3 op loc v ans).isSome = true ∧ ∀ e ∈ ans, Q log e := by
  cases loc with
  | loadPriority | compare | storeSynced => exact ⟨none, rfl, by simp⟩
  | setPriority p =>
      obtain ⟨ok, hok⟩ := hQ.setPriority log p
      exact ⟨some (.setPriority p ok), by simp [body], by simpa using hok⟩
  | call sent =>
      cases op with
      | write data =>
          by_cases hnil : data.drop sent = []
          · exact ⟨none, by simp only [body, write, if_pos hnil]; rfl, by simp⟩
          · obtain ⟨r, hr⟩ := hQ.write log (data.drop sent)
            exact ⟨some (.write (data.drop sent) r), by
              simp only [body, write, ne_eq, hnil, not_false_eq_true, and_self,
                if_true]
              rfl, by simpa using hr⟩
      | writeSome data =>
          obtain ⟨r, hr⟩ := hQ.write log data
          exact ⟨some (.write data r),
            by simp only [body, writeSome, if_true]; rfl, by simpa using hr⟩
      | finish =>
          obtain ⟨ok, hok⟩ := hQ.finish log
          exact ⟨some (.finish ok), rfl, by simpa using hok⟩
      | waitClosed =>
          obtain ⟨r, hr⟩ := hQ.stopped log
          exact ⟨some (.stopped r), rfl, by simpa using hr⟩

theorem responsive (hQ : Answering Q) : (half errorFromHttp3).Responsive Q where
  body := exists_body hQ
  close log code := by
    obtain ⟨ok, hok⟩ := hQ.reset log code
    exact ⟨.reset code ok, rfl, hok⟩
  finish _ log := by
    obtain ⟨ok, hok⟩ := hQ.finish log
    exact ⟨.finish ok, rfl, hok⟩
  apply log k := by
    obtain ⟨ok, hok⟩ := hQ.setPriority log k
    exact ⟨.setPriority k ok, decide_eq_true rfl, hok⟩

/-- Within one poll a body goes on to its call on the stream, and `write_all`
with a shorter rest. -/
theorem rank_lt_of_body (hQ : WriteProgress Q) {op : Op} {loc loc' : Loc}
    {v v' : Priorities} {ans : Option Event} {log : List Event}
    (h : body errorFromHttp3 op loc v ans = some (v', .more loc'))
    (hans : ∀ e ∈ ans, Q log e) : rank op loc' < rank op loc := by
  generalize hbeat : Beat.more loc' = beat at h
  cases bodyMove_of_body h with
  | loads | differs | agrees | applies | storesSynced =>
      cases hbeat
      simp only [rank]
      omega
  | writeAccepts data sent n hne =>
      cases hbeat
      have haccepts : 0 < n := hQ log _ n (hans _ rfl) hne
      have hrest : sent < data.length := by
        by_contra hall
        exact hne (List.drop_eq_nil_of_le (by omega))
      simp only [rank, size]
      omega
  | _ => cases hbeat

/-- The bodies come to their end. -/
def progress (hQ : WriteProgress Q) : (half errorFromHttp3).Progress Q where
  rank := rank
  falls h hans := rank_lt_of_body hQ h hans

theorem neverPends (hQ : Immediate Q) : (half errorFromHttp3).NeverPends Q := by
  intro log op l v ans v' l' hb hans
  generalize hbeat : Beat.pend l' = beat at hb
  cases bodyMove_of_body hb with
  | writePends data => exact hQ.write log _ (hans _ rfl)
  | somePends data => exact hQ.write log data (hans _ rfl)
  | waits => exact hQ.stopped log (hans _ rfl)
  | _ => cases hbeat

end Laws

/-- An open session on which a `write` that succeeds accepts something. -/
def eagerSession (log : List Event) (e : Event) : Bool :=
  openSession log e &&
    match e with
    | .write data (.ready (.ok n)) => data = [] || 0 < n
    | _ => true

theorem eagerSession_answering :
    Answering fun log e => eagerSession log e = true where
  write log data := by
    by_cases hclosed : Closed log
    · exact ⟨.ready (.error .closedStream),
        by simp [eagerSession, openSession, hclosed]⟩
    · exact ⟨.pending, by simp [eagerSession, openSession, hclosed]⟩
  finish log := ⟨_, by simp [eagerSession, openSession]; rfl⟩
  reset log code := ⟨_, by simp [eagerSession, openSession]; rfl⟩
  stopped log := ⟨.pending, rfl⟩
  setPriority log p := ⟨_, by simp [eagerSession, openSession]; rfl⟩

theorem eagerSession_writeProgress :
    WriteProgress fun log e => eagerSession log e = true := by
  intro log data n h hne
  simp only [eagerSession, Bool.and_eq_true, Bool.or_eq_true, decide_eq_true_eq,
    hne, false_or] at h
  exact h.2

def lostSession : Event → Bool
  | .write _ r => r = .ready (.error (.sessionError (.connectionError .timedOut)))
  | .stopped r => r = .ready (.error (.connectionError .timedOut))
  | .finish ok | .reset _ ok | .setPriority _ ok => ok

abbrev LostSession : Answers Event :=
  fun _ e => lostSession e = true

theorem lostSession_answering : Answering LostSession where
  write _ _ := ⟨_, decide_eq_true rfl⟩
  finish _ := ⟨true, rfl⟩
  reset _ _ := ⟨true, rfl⟩
  stopped _ := ⟨_, decide_eq_true rfl⟩
  setPriority _ _ := ⟨true, rfl⟩

theorem lostSession_writeProgress : WriteProgress LostSession := by
  intro log data n h
  simp [LostSession, lostSession] at h

theorem lostSession_immediate : Immediate LostSession where
  write log data h := by simp [LostSession, lostSession] at h
  stopped log h := by simp [LostSession, lostSession] at h

end WebTransport.SendStream
