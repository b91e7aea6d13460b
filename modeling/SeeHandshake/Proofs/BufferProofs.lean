import SeeHandshake.Proofs.LifetimeProofs

/-!
# Proofs: reassembly buffers stay small

Whatever way a segment takes through `ingest`, no record can be cut off a buffer afterwards: the
regular exit keeps what the parser left, the cap leaves the buffer alone, and the other error clears
it. So a buffer is shorter than the longest record.
-/

namespace SeeHandshake

variable {tp : TlsParser}

namespace TrackedConnection

/-- No record can be cut off a buffer of the connection. -/
def Unframed (conn : TrackedConnection) : Prop := ∀ d, recordCut (conn.buf d) = .need

namespace Unframed

theorem created (key : ConnectionKey) (nowMs : UInt64) (origin : Origin) :
    (TrackedConnection.created key nowMs origin).Unframed := by
  intro d
  cases d <;> rfl

theorem setBuf {conn : TrackedConnection} (h : conn.Unframed) (d : Direction) {bytes : Bytes}
    (hcut : recordCut bytes = .need) : (conn.setBuf d bytes).Unframed := by
  intro d'
  rw [buf_setBuf]
  split_ifs
  · exact hcut
  · exact h d'

theorem step {conn : TrackedConnection} (h : conn.Unframed) (seg : Segment) :
    (conn.step tp seg).Unframed := by
  by_cases hne : seg.payload = []
  · rw [step_of_nil hne]
    exact h
  by_cases hf : conn.fails seg
  · obtain ⟨text, bytes, hbytes, hstep⟩ := step_of_fails tp hf
    rw [hstep]
    have herrored : (conn.errored seg.nowMs text).Unframed := fun d => by
      rw [buf_errored]
      exact h d
    rcases hbytes with rfl | rfl
    · exact herrored.setBuf _ (h _)
    · exact herrored.setBuf _ rfl
  · have hstop : (conn.peeled seg).stop = none := by
      by_contra hstop
      exact hf (fails_iff.mpr ⟨hne, Or.inr hstop⟩)
    intro d
    rw [step_buf hne hf]
    split_ifs
    · exact cut_rest_of_stop_none hstop
    · exact h d

theorem run {conn : TrackedConnection} (h : conn.Unframed) (segs : List Segment) :
    (conn.run tp segs).Unframed := by
  induction segs generalizing conn with
  | nil => exact h
  | cons seg segs ih => exact ih (h.step seg)

/-- An unframed buffer and the largest payload of an IP packet fit below the cap. -/
theorem not_overflows {conn : TrackedConnection} (h : conn.Unframed) {seg : Segment}
    (hlen : seg.payload.length ≤ 65535) : ¬ conn.overflows seg := by
  have hbuf := length_lt_of_need (h seg.direction)
  have hmax : MAX_RECORD_PAYLOAD = 16384 := rfl
  have hhdr : RECORD_HEADER_LEN = 5 := rfl
  have hcap : MAX_REASSEMBLY_BYTES = 131072 := rfl
  unfold overflows
  omega

end Unframed

end TrackedConnection

namespace ConnectionTracker

variable {ρ : Type} [OriginResolver ρ]

/-- The buffers of tracked connections are unframed in every run. -/
theorem unframed_of_lookup {timeoutMs : UInt64} {r : ρ} {os : List TrackerOp} {key : ConnectionKey}
    {conn : TrackedConnection}
    (h : ((withStaleTimeout timeoutMs r).ops tp os).connections.lookup key = some conn) :
    conn.Unframed := by
  obtain ⟨nowMs, origin, rfl⟩ := lookup_ops_eq_run tp h
  exact (TrackedConnection.Unframed.created key nowMs origin).run _

/-- So are those of the connection that a call works on. -/
theorem unframed_target (tp : TlsParser) (timeoutMs : UInt64) (r : ρ) (os : List TrackerOp)
    (c : Call) : (((withStaleTimeout timeoutMs r).ops tp os).target c).1.Unframed := by
  cases hl : ((withStaleTimeout timeoutMs r).ops tp os).connections.lookup c.key with
  | some conn =>
    rw [target_of_some hl]
    exact unframed_of_lookup hl
  | none =>
    rw [target_of_none hl]
    exact TrackedConnection.Unframed.created _ _ _

/-- In every run of ingestion and eviction, whatever the payloads: the buffers of every tracked
connection hold at most 16388 bytes and parse as no complete record. If no payload is longer than an
IP packet can carry, no call takes the branch of the cap. -/
theorem buffers_small (tp : TlsParser) (timeoutMs : UInt64) (r : ρ) (os : List TrackerOp) :
    let fresh := withStaleTimeout timeoutMs r
    (∀ key conn d, (fresh.ops tp os).connections.lookup key = some conn →
      (conn.buf d).length ≤ 16388 ∧ parseRecords (conn.buf d) = .ok ([], 0)) ∧
    ((∀ c, .ingest c ∈ os → c.payload.length ≤ 65535) →
      ∀ a c b, os = a ++ .ingest c :: b → ¬ ((fresh.ops tp a).target c).1.overflows c.segment) := by
  intro fresh
  constructor
  · intro key conn d hlookup
    have hcut := unframed_of_lookup hlookup d
    have hlen := length_lt_of_need hcut
    have hmax : MAX_RECORD_PAYLOAD = 16384 := rfl
    have hhdr : RECORD_HEADER_LEN = 5 := rfl
    exact ⟨by omega, parseRecords_of_need hcut⟩
  · intro hpayloads a c b hos
    have hlen : c.segment.payload.length ≤ 65535 := hpayloads c (by rw [hos]; simp)
    exact (unframed_target tp timeoutMs r a c).not_overflows hlen

/-- The first ten bytes of a ClientHello stay in the buffer, and a call that brings the rest is not over
the cap. -/
theorem buffers_small_halves :
    let hello := Reference.record 22 Reference.clientHello13
    let half (payload : Bytes) : Call := ⟨Reference.key, .clientToServer, Reference.clientEndpoint,
      Reference.serverEndpoint, payload, 7⟩
    let fresh := withResolver (FixedResolver.mk .unknown)
    let first := fresh.ops Reference.parser [.ingest (half (hello.take 10))]
    (∃ conn, first.connections.lookup Reference.key = some conn ∧
      conn.buf .clientToServer = hello.take 10 ∧
      parseRecords (conn.buf .clientToServer) = .ok ([], 0)) ∧
    ¬ (first.target (half (hello.drop 10))).1.overflows (half (hello.drop 10)).segment := by
  intro hello half fresh first
  obtain ⟨hsmall, -⟩ := buffers_small Reference.parser DEFAULT_STALE_TIMEOUT_MS
    (FixedResolver.mk .unknown) [.ingest (half (hello.take 10))]
  obtain ⟨-, hcap⟩ := buffers_small Reference.parser DEFAULT_STALE_TIMEOUT_MS
    (FixedResolver.mk .unknown)
    [.ingest (half (hello.take 10)), .ingest (half (hello.drop 10))]
  constructor
  · obtain ⟨conn, hconn⟩ := Option.isSome_iff_exists.mp
      (show (first.connections.lookup Reference.key).isSome by decide)
    have hbuffered : first.buffered Reference.key .clientToServer = hello.take 10 := by decide
    unfold buffered at hbuffered
    rw [hconn] at hbuffered
    exact ⟨conn, hconn, hbuffered, (hsmall Reference.key conn .clientToServer hconn).2⟩
  · refine hcap ?_ [.ingest (half (hello.take 10))] (half (hello.drop 10)) [] rfl
    intro c hc
    simp only [List.mem_cons, TrackerOp.ingest.injEq, List.not_mem_nil, or_false] at hc
    rcases hc with rfl | rfl
    · decide
    · decide

end ConnectionTracker

end SeeHandshake
