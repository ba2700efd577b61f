import WebTransport.RecvStream.Model
import WebTransport.Wrapper.Settling

/-!
# The bodies of the receive half come to an end

Every call on the QUIC stream has an answer, so that a body can always go on, and
the loop of `read_exact` comes closer to its end with every byte.
-/

namespace WebTransport.RecvStream

open Support Wrapper

/-! ## What is assumed of the QUIC stream -/

/-- Every call on the QUIC stream is answered. -/
structure Answering (Q : Answers Event) : Prop where
  readChunk : ∀ log max, ∃ r, Q log (.readChunk max r)
  readExact : ∀ log want, ∃ r, Q log (.readExact want r)
  readToEnd : ∀ log limit, ∃ r, Q log (.readToEnd limit r)
  receivedReset : ∀ log, ∃ r, Q log (.receivedReset r)
  stop : ∀ log code, ∃ ok, Q log (.stop code ok)

/-- A request of `read_exact` that succeeds yields something. -/
def ReadProgress (Q : Answers Event) : Prop :=
  ∀ log want data, Q log (.readExact want (.ready (.ok (some data)))) → data ≠ []

/-- No call waits: the session is lost, say. -/
structure Immediate (Q : Answers Event) : Prop where
  readChunk : ∀ log max, ¬ Q log (.readChunk max .pending)
  readExact : ∀ log want, ¬ Q log (.readExact want .pending)
  readToEnd : ∀ log limit, ¬ Q log (.readToEnd limit .pending)
  receivedReset : ∀ log, ¬ Q log (.receivedReset .pending)

def size : Op → ℕ
  | .readexactly n => n.toNat
  | _ => 0

/-- How far a body is from its end. -/
def rank (op : Op) : Loc → ℕ
  | .eofTest => 2 + size op
  | .call buf => 1 + (size op - buf.length)
  | .eofStore _ => 0

section Laws

variable {errorFromHttp3 : ErrorFromHttp3} {Q : Answers Event}

theorem exists_body (hQ : Answering Q) (op : Op) (loc : Loc) (v : Flags)
    (log : List Event) :
    ∃ ans, (body errorFromHttp3 op loc v ans).isSome = true ∧ ∀ e ∈ ans, Q log e := by
  cases loc with
  | eofTest | eofStore => exact ⟨none, rfl, by simp⟩
  | call buf =>
      cases op with
      | read n limit =>
          by_cases hn : n < 0
          · obtain ⟨r, hr⟩ := hQ.readToEnd log (limit.getD (.ofNat (2 ^ 64 - 1)))
            exact ⟨some (.readToEnd (limit.getD (.ofNat (2 ^ 64 - 1))) r),
              by simp only [body, if_pos hn, readToEnd, if_true]; rfl,
              by simpa using hr⟩
          · obtain ⟨r, hr⟩ := hQ.readChunk log n.toInt.toNat
            exact ⟨some (.readChunk n.toInt.toNat r),
              by simp only [body, if_neg hn, readChunk, if_true]; rfl,
              by simpa using hr⟩
      | readexactly n =>
          by_cases hfull : n.toNat ≤ buf.length
          · exact ⟨none, by simp only [body, readExact, if_pos hfull]; rfl, by simp⟩
          · obtain ⟨r, hr⟩ := hQ.readExact log (n.toNat - buf.length)
            have hroom : n.toNat - buf.length ≠ 0 := by omega
            exact ⟨some (.readExact (n.toNat - buf.length) r), by
              simp only [body, readExact, ne_eq, hroom, not_false_eq_true, and_self,
                if_true]
              rfl, by simpa using hr⟩
      | anext =>
          obtain ⟨r, hr⟩ := hQ.readChunk log 65536
          exact ⟨some (.readChunk 65536 r),
            by simp only [body, readChunk, if_true]; rfl, by simpa using hr⟩
      | waitClosed =>
          obtain ⟨r, hr⟩ := hQ.receivedReset log
          exact ⟨some (.receivedReset r), rfl, by simpa using hr⟩

theorem responsive (hQ : Answering Q) : (half errorFromHttp3).Responsive Q where
  body := exists_body hQ
  close log code := by
    obtain ⟨ok, hok⟩ := hQ.stop log code
    exact ⟨.stop code ok, rfl, hok⟩
  finish h := by cases h
  apply _ k := k.elim

theorem rank_lt_of_body (hQ : ReadProgress Q) {op : Op} {loc loc' : Loc}
    {v v' : Flags} {ans : Option Event} {log : List Event}
    (h : body errorFromHttp3 op loc v ans = some (v', .more loc'))
    (hans : ∀ e ∈ ans, Q log e) : rank op loc' < rank op loc := by
  generalize hbeat : Beat.more loc' = beat at h
  cases bodyMove_of_body h with
  | tests =>
      rcases afterTest_cases op with hcall | ⟨limit, -, hready⟩ | ⟨n, -, -, hready⟩
      · rw [hcall] at hbeat
        cases hbeat
        simp only [rank, List.length_nil]
        omega
      · rw [hready] at hbeat
        cases hbeat
      · rw [hready] at hbeat
        cases hbeat
  | endReads | chunkEnds | exactEnds =>
      cases hbeat
      simp only [rank]
      omega
  | exactReads n buf data hroom =>
      cases hbeat
      have hyields : 0 < data.length :=
        List.length_pos_iff.mpr (hQ log _ data (hans _ rfl))
      simp only [rank, size, List.length_append]
      omega
  | _ => cases hbeat

/-- The bodies come to their end. -/
def progress (hQ : ReadProgress Q) : (half errorFromHttp3).Progress Q where
  rank := rank
  falls h hans := rank_lt_of_body hQ h hans

theorem neverPends (hQ : Immediate Q) : (half errorFromHttp3).NeverPends Q := by
  intro log op l v ans v' l' hb hans
  generalize hbeat : Beat.pend l' = beat at hb
  cases bodyMove_of_body hb with
  | tests =>
      rcases afterTest_cases op with heq | ⟨limit, -, heq⟩ | ⟨n, -, -, heq⟩ <;>
        · rw [heq] at hbeat
          cases hbeat
  | endPends n limit buf l => exact hQ.readToEnd log l (hans _ rfl)
  | chunkPends op buf max => exact hQ.readChunk log max (hans _ rfl)
  | exactPends n buf => exact hQ.readExact log _ (hans _ rfl)
  | waits => exact hQ.receivedReset log (hans _ rfl)
  | _ => cases hbeat

end Laws

theorem finishedStream_answering (S : List UInt8) :
    Answering (FinishedStream S) where
  readChunk log max := by
    by_cases hseen : Seen Event.unordered log
    · exact ⟨.ready (.error .illegalOrderedRead), by
        simp [FinishedStream, finishedStream,
          orderedRead, hseen]⟩
    · exact ⟨.pending, by
        simp [FinishedStream, finishedStream,
          orderedRead, hseen]⟩
  readExact log want := by
    by_cases hseen : Seen Event.unordered log
    · exact ⟨.ready (.error .illegalOrderedRead), by
        simp [FinishedStream, finishedStream,
          orderedRead, hseen]⟩
    · exact ⟨.pending, by
        simp [FinishedStream, finishedStream,
          orderedRead, hseen]⟩
  readToEnd log limit := ⟨.pending, rfl⟩
  receivedReset log := ⟨.pending, rfl⟩
  stop log code := ⟨_, decide_eq_true rfl⟩

theorem finishedStream_readProgress (S : List UInt8) :
    ReadProgress (FinishedStream S) := by
  intro log want data h
  simp only [FinishedStream, finishedStream,
    orderedRead, continues, Bool.and_eq_true,
    decide_eq_true_eq] at h
  exact h.2.2.1.1

/-- A session that has timed out. -/
def lostSession : Event → Bool
  | .readChunk _ r | .readExact _ r =>
      r = .ready (.error (.sessionError (.connectionError .timedOut)))
  | .readToEnd _ r =>
      r = .ready (.error (.readError (.sessionError (.connectionError .timedOut))))
  | .receivedReset r => r = .ready (.error (.connectionError .timedOut))
  | .stop _ ok => ok
  | .dropped => true

abbrev LostSession : Answers Event :=
  fun _ e => lostSession e = true

theorem lostSession_answering : Answering LostSession where
  readChunk _ _ := ⟨_, decide_eq_true rfl⟩
  readExact _ _ := ⟨_, decide_eq_true rfl⟩
  readToEnd _ _ := ⟨_, decide_eq_true rfl⟩
  receivedReset _ := ⟨_, decide_eq_true rfl⟩
  stop _ _ := ⟨true, rfl⟩

theorem lostSession_readProgress : ReadProgress LostSession := by
  intro log want data h
  simp [LostSession, lostSession] at h

theorem lostSession_immediate : Immediate LostSession where
  readChunk log max h := by simp [LostSession, lostSession] at h
  readExact log want h := by simp [LostSession, lostSession] at h
  readToEnd log limit h := by simp [LostSession, lostSession] at h
  receivedReset log h := by simp [LostSession, lostSession] at h

end WebTransport.RecvStream
