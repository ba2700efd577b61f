import WebTransport.Client.Model

/-!
# Pinned certificates

How a client decides whether it talks to the right server.  With the hashes of
certificates in hand nothing else counts: neither the name of the server, nor the
dates of its certificate, nor who has signed it.  A session is established with a
server whose certificate has one of the hashes, or with none.
-/

namespace WebTransport.Client

open Support Wrapper

/-! ## The hash of a certificate -/

/-- `rustls::crypto::hash::HashAlgorithm` -/
inductive HashAlgorithm
  | none
  | md5
  | sha1
  | sha224
  | sha256
  | sha384
  | sha512
  | unknown (id : UInt8)
  deriving DecidableEq, Repr

/-- The hash function of a TLS 1.3 cipher suite. -/
structure HashProvider where
  algorithm : HashAlgorithm
  hash : List UInt8 → List UInt8

/-- `rustls::SupportedCipherSuite` -/
inductive CipherSuite
  | tls12
  | tls13 (hashProvider : HashProvider)

inductive CertError
  | general (msg : String)
  | unknownIssuer
  | other (display : String)
  deriving DecidableEq, Repr

/-- The hash function of a suite, if it is SHA-256. -/
def CipherSuite.sha256? : CipherSuite → Option HashProvider
  | tls12 => none
  | tls13 hashProvider =>
      if hashProvider.algorithm = .sha256 then some hashProvider else none

/-- Compute the SHA-256 hash of a certificate. -/
def sha256 (cipherSuites : List CipherSuite) (cert : List UInt8) :
    Except CertError (List UInt8) :=
  match cipherSuites.findSome? CipherSuite.sha256? with
  | some hashProvider => .ok (hashProvider.hash cert)
  | none => .error (.general "crypto provider does not support SHA-256")

/-! ## Verifying the certificate of a server -/

/-- The verifiers that a client can be built with. -/
inductive Verifier
  | noCertificateVerification
  | serverFingerprints (fingerprints : List (List UInt8))
  | systemRoots

/-- The verifier that `Client::new` chooses. -/
def verifier (serverCertificateHashes : Option (List (List UInt8)))
    (noCertVerification : Bool) : Verifier :=
  if noCertVerification then .noCertificateVerification
  else match serverCertificateHashes with
    | some hashes => .serverFingerprints hashes
    | none => .systemRoots

/-- `verify_server_cert`.  What the system roots say about a certificate is decided
by `rustls` and is a parameter. -/
def verifyServerCert (cipherSuites : List CipherSuite)
    (webPki : List UInt8 → Except CertError Unit) (endEntity : List UInt8) :
    Verifier → Except CertError Unit
  | .noCertificateVerification => .ok ()
  | .serverFingerprints fingerprints =>
      match sha256 cipherSuites endEntity with
      | .error e => .error e
      | .ok certHash =>
          if fingerprints.any fun fingerprint => fingerprint = certHash then .ok ()
          else .error .unknownIssuer
  | .systemRoots => webPki endEntity

/-- Some TLS 1.3 suite hashes with SHA-256, and all that do compute `digest`. -/
structure HashesWith (cipherSuites : List CipherSuite)
    (digest : List UInt8 → List UInt8) : Prop where
  supported : ∃ p, CipherSuite.tls13 p ∈ cipherSuites ∧ p.algorithm = .sha256
  correct : ∀ p, CipherSuite.tls13 p ∈ cipherSuites → p.algorithm = .sha256 →
    p.hash = digest

section Verification

variable {cipherSuites : List CipherSuite} {digest : List UInt8 → List UInt8}
  {webPki : List UInt8 → Except CertError Unit} {hashes : List (List UInt8)}
  {cert : List UInt8}

theorem sha256?_eq_some {suite : CipherSuite} {p : HashProvider}
    (h : suite.sha256? = some p) : suite = .tls13 p ∧ p.algorithm = .sha256 := by
  unfold CipherSuite.sha256? at h
  split at h
  · cases h
  · split at h
    · rename_i halg
      cases h
      exact ⟨rfl, halg⟩
    · cases h

/-- Whichever suite comes first, the hash is the one that Python computes. -/
theorem sha256_eq_digest (hsuites : HashesWith cipherSuites digest) :
    sha256 cipherSuites cert = .ok (digest cert) := by
  obtain ⟨p, hp, halg⟩ := hsuites.supported
  have hsome : (cipherSuites.findSome? CipherSuite.sha256?).isSome = true := by
    rw [List.findSome?_isSome_iff]
    refine ⟨_, hp, ?_⟩
    rw [CipherSuite.sha256?, if_pos halg]
    rfl
  obtain ⟨first, hfirst⟩ := Option.isSome_iff_exists.mp hsome
  obtain ⟨suite, hsuite, heq⟩ := List.exists_of_findSome?_eq_some hfirst
  obtain ⟨rfl, hsha⟩ := sha256?_eq_some heq
  rw [sha256, hfirst, ← hsuites.correct first hsuite hsha]

theorem verifyServerCert_eq_ok_iff (hsuites : HashesWith cipherSuites digest)
    (noCertVerification : Bool) :
    verifyServerCert cipherSuites webPki cert
        (verifier (some hashes) noCertVerification) = .ok () ↔
      noCertVerification = true ∨ digest cert ∈ hashes := by
  cases noCertVerification with
  | true => simp [verifier, verifyServerCert]
  | false =>
      by_cases hmem : digest cert ∈ hashes
      · simp [verifier, verifyServerCert, sha256_eq_digest hsuites, hmem]
      · simp [verifier, verifyServerCert, sha256_eq_digest hsuites, hmem]

end Verification

/-! ## Sessions with the right server -/

section Sessions

variable {Url : Type} [DecidableEq Url] {parse : String → Except String Url}
  {Q : Answers (Event Url)} {op : Op Url} {pc pc' : Pc} {ans : Option (Event Url)}
  {log : List (Event Url)} {w w' : World Url} {l : Action Url} {id : ℕ}

/-- A `connect` succeeds only with a certificate that the verifier has accepted;
`presented` is the certificate that the server of a session has shown. -/
def Verified (accepted : List UInt8 → Except CertError Unit) (presented : ℕ → List UInt8)
    (Q : Answers (Event Url)) : Prop :=
  ∀ log url id, Q log (.connect url (.ready (.ok id))) →
    accepted (presented id) = .ok ()

/-- The QUIC client has answered with the session. -/
def HandedOut (Q : Answers (Event Url)) (id : ℕ) : Prop :=
  ∃ log url, Q log (.connect url (.ready (.ok id)))

theorem connected_eq_session {p : Poll (Except ClientError ℕ)}
    (h : connected p = .ready (.ok (.session id))) : p = .ready (.ok id) := by
  match p with
  | .pending => cases h
  | .ready (.error e) => cases h
  | .ready (.ok id) =>
      cases h
      rfl

theorem handedOut_of_taskMove (h : oneCall.TaskMove op pc ans pc') (hans : ∀ e ∈ ans, Q log e)
    (hpc : pc' = .done (.ok (.session id))) : HandedOut Q id := by
  cases h with
  | returns v hop =>
      obtain ⟨rfl, rfl⟩ := first_eq_returns hop
      cases hpc
  | calls => cases hpc
  | polls pc e r hpending hfirst hr =>
      have hready : r = .ready (.ok (.session id)) := by
        cases r with
        | pending => cases hpc
        | ready a =>
            cases hpc
            rfl
      subst hready
      change awaits op e = some (.ready (.ok (.session id))) at hr
      unfold awaits at hr
      split at hr
      · split at hr
        · rename_i p hurl
          have hp : p = .ready (.ok id) := connected_eq_session (Option.some.inj hr)
          subst hp
          exact ⟨log, _, hans _ rfl⟩
        · cases hr
      case h_2 p | h_3 p =>
        have hidle := Option.some.inj hr
        cases p <;> cases hidle
      · cases hr

theorem handedOut_step
    (hw : ∀ (i : ℕ) (t : Task Url), w.tasks[i]? = some t →
      ∀ id, t.pc = .done (.ok (.session id)) → HandedOut Q id)
    (h : Step parse Q w l w') (i : ℕ) (t : Task Url) (hi : w'.tasks[i]? = some t)
    (id : ℕ) (hpc : t.pc = .done (.ok (.session id))) : HandedOut Q id := by
  have hans := h.2
  revert i t id
  cases h.move with
  | call c op hop =>
      apply forall_getElem?_concat
      · intro id hpc
        cases hpc
      · exact hw
  | noUrl | close | refused => exact hw
  | task i ans hi hm =>
      apply forall_getElem?_set
      · intro id hpc
        exact handedOut_of_taskMove hm hans hpc
      · intro j t _ hj
        exact hw j t hj
  | drop i hi hdrop =>
      apply forall_getElem?_set
      · intro id hpc
        cases hpc
      · intro j t _ hj
        exact hw j t hj

theorem handedOut_of_result (h : Reachable (Step parse Q) new w) {i : ℕ}
    {t : Task Url} (hi : w.tasks[i]? = some t)
    (hpc : t.pc = .done (.ok (.session id))) : HandedOut Q id := by
  have hall : ∀ (i : ℕ) (t : Task Url), w.tasks[i]? = some t →
      ∀ id, t.pc = .done (.ok (.session id)) → HandedOut Q id := by
    refine h.invariant (I := fun w => ∀ (i : ℕ) (t : Task Url),
      w.tasks[i]? = some t → ∀ id, t.pc = .done (.ok (.session id)) →
        HandedOut Q id) ?_ ?_
    · intro u l v hstep hu
      exact handedOut_step hu hstep
    · simp [new]
  exact hall i t hi id hpc

/-- A client that was given hashes, and was not told to skip verification, takes a
certificate if and only if one of them is its SHA-256 hash as Python computes it;
and in every run, each session that it gets is with a server that has shown such a
certificate. -/
theorem pinned_sessions {cipherSuites : List CipherSuite}
    {digest : List UInt8 → List UInt8} {webPki : List UInt8 → Except CertError Unit}
    {hashes : List (List UInt8)} {noCertVerification : Bool}
    {presented : ℕ → List UInt8} (hsuites : HashesWith cipherSuites digest)
    (hQ : Verified (fun cert => verifyServerCert cipherSuites webPki cert
      (verifier (some hashes) noCertVerification)) presented Q)
    (h : Reachable (Step parse Q) new w) :
    (∀ cert, verifyServerCert cipherSuites webPki cert
        (verifier (some hashes) noCertVerification) = .ok () ↔
      noCertVerification = true ∨ digest cert ∈ hashes) ∧
    ∀ (i : ℕ) (t : Task Url) (id : ℕ), w.tasks[i]? = some t →
      t.pc = .done (.ok (.session id)) →
        noCertVerification = true ∨ digest (presented id) ∈ hashes := by
  constructor
  · intro cert
    exact verifyServerCert_eq_ok_iff hsuites noCertVerification
  · intro i t id hi hpc
    obtain ⟨log, url, hans⟩ := handedOut_of_result h hi hpc
    exact (verifyServerCert_eq_ok_iff hsuites noCertVerification).mp
      (hQ log url id hans)

end Sessions

def abcHash : List UInt8 :=
  [0xBA, 0x78, 0x16, 0xBF, 0x8F, 0x01, 0xCF, 0xEA, 0x41, 0x41, 0x40, 0xDE, 0x5D, 0xAE,
    0x22, 0x23, 0xB0, 0x03, 0x61, 0xA3, 0x96, 0x17, 0x7A, 0x9C, 0xB4, 0x10, 0xFF, 0x61,
    0xF2, 0x00, 0x15, 0xAD]

def abcDigest (cert : List UInt8) : List UInt8 :=
  if cert = [0x61, 0x62, 0x63] then abcHash else []

def twoSuites : List CipherSuite :=
  [.tls13 ⟨.sha384, fun _ => []⟩, .tls13 ⟨.sha256, abcDigest⟩]

theorem twoSuites_hashesWith : HashesWith twoSuites abcDigest where
  supported := ⟨⟨.sha256, abcDigest⟩, by simp [twoSuites], rfl⟩
  correct p hp halg := by
    simp only [twoSuites, List.mem_cons, CipherSuite.tls13.injEq, List.not_mem_nil,
      or_false] at hp
    rcases hp with rfl | rfl
    · cases halg
    · rfl

def abcServer (_log : List (Event Unit)) : Event Unit → Bool
  | .connect _ r => r = .ready (.ok 0)
  | _ => false

/-- A client with one pinned certificate gets a session with the server that shows it. -/
def onePinned : World Unit :=
  after (fun _ => .ok ()) abcServer new
    [.call (.connect "https://localhost"),
      .task 0 (some (.connect () (.ready (.ok 0))))]

theorem abcServer_verified :
    Verified (fun cert => verifyServerCert twoSuites (fun _ => .ok ()) cert
      (verifier (some [abcHash]) false)) (fun _ => [0x61, 0x62, 0x63])
      fun log e => abcServer log e = true := by
  have hpinned : abcDigest [0x61, 0x62, 0x63] ∈ [abcHash] := by decide
  intro log url id _
  exact (verifyServerCert_eq_ok_iff twoSuites_hashesWith false).mpr (Or.inr hpinned)

/-- The session is with the server whose certificate is pinned; a certificate
without the hash would not do. -/
theorem onePinned_session :
    abcDigest [0x61, 0x62, 0x63] ∈ [abcHash] ∧
      verifyServerCert twoSuites (fun _ => .ok ()) [0x61]
        (verifier (some [abcHash]) false) ≠ .ok () := by
  have hrun : Reachable (Step (fun _ => .ok ()) fun log e => abcServer log e = true)
      new onePinned := (run_after _ (by decide)).reachable
  obtain ⟨hiff, hsessions⟩ :=
    pinned_sessions twoSuites_hashesWith abcServer_verified hrun
  constructor
  · exact (hsessions 0 _ 0 rfl rfl).resolve_left (by decide)
  · rw [Ne, hiff]
    decide

end WebTransport.Client
