import SeeHandshake.Proofs.CheckedProofs

/-!
# Proofs: the hello and record decoders do not panic

The cursor readers take both hellos apart statement by statement; the loop over records keeps its
cursor inside the buffer, so that the one sum of the decoders that grows with the buffer stays below
`usize::MAX`.
-/

namespace SeeHandshake.Checked

open Lib Panicking Embeds

variable {w : ℕ}

/-! ## Cursors -/

theorem readU8_eq (cursor : Bytes) : readU8 cursor = embed (SeeHandshake.readU8 cursor) := by
  cases cursor <;> rfl

theorem readU16_eq (cursor : Bytes) : readU16 cursor = embed (SeeHandshake.readU16 cursor) := by
  rcases cursor with - | ⟨hi, - | ⟨lo, rest⟩⟩
  · rfl
  · rfl
  have hread : u16At (hi :: lo :: rest) 0 1 = .ok (u16FromBe hi lo) := rfl
  have hfrom : sliceFrom (hi :: lo :: rest) 2 = .ok rest := sliceFrom_eq (by simp)
  have hlong : ¬ (hi :: lo :: rest).length < 2 := by simp
  unfold readU16 SeeHandshake.readU16
  simp only [if_neg hlong, hread, hfrom, lift_ok, pure_bind]
  rfl

theorem readArray32_eq (cursor : Bytes) :
    readArray32 cursor = embed (SeeHandshake.readArray32 cursor) := by
  unfold readArray32 SeeHandshake.readArray32
  by_cases hshort : cursor.length < 32
  · rw [if_pos hshort, dif_pos hshort]
    rfl
  · have hle : 32 ≤ cursor.length := Nat.not_lt.mp hshort
    have hcopy : (cursor.take 32).length = 32 := List.length_take_of_le hle
    rw [if_neg hshort, dif_neg hshort]
    simp only [sliceTo_eq hle, copyFromSlice_eq hcopy, sliceFrom_eq hle, lift_ok, pure_bind]
    rfl

theorem readBytes_eq (cursor : Bytes) (n : ℕ) :
    readBytes cursor n = embed (SeeHandshake.readBytes cursor n) := by
  unfold readBytes SeeHandshake.readBytes
  by_cases hshort : cursor.length < n
  · rw [if_pos hshort, if_pos hshort]
    rfl
  · rw [if_neg hshort, if_neg hshort]
    simp only [splitAt_eq (Nat.not_lt.mp hshort), lift_ok, pure_bind]
    rfl

/-- A length of three bytes. -/
theorem u24_lt (l1 l2 l3 : UInt8) : (u32FromBe 0 l1 l2 l3).toNat < 2 ^ 24 := by
  have h1 := l1.toNat_lt
  have h2 := l2.toNat_lt
  have h3 := l3.toNat_lt
  rw [u32FromBe_toNat, UInt8.toNat_zero]
  omega

theorem asUsize_eq (hw : 32 ≤ w) {n : ℕ} (h : n < 2 ^ 24) : asUsize w n = n := by
  refine Nat.mod_eq_of_lt (Nat.lt_of_lt_of_le h ?_)
  exact Nat.pow_le_pow_right Nat.two_pos (by omega)

theorem stripHandshakeHeader_eq (hw : 32 ≤ w) (bytes : Bytes) (expectedType : UInt8) :
    stripHandshakeHeader w bytes expectedType =
      embed (SeeHandshake.stripHandshakeHeader bytes expectedType) := by
  rcases bytes with - | ⟨ty, - | ⟨l1, - | ⟨l2, - | ⟨l3, rest⟩⟩⟩⟩
  · rfl
  · rfl
  · rfl
  · rfl
  have hlt := u24_lt l1 l2 l3
  have htype : byteAt (ty :: l1 :: l2 :: l3 :: rest) 0 = .ok ty := rfl
  have h1 : byteAt (ty :: l1 :: l2 :: l3 :: rest) 1 = .ok l1 := rfl
  have h2 : byteAt (ty :: l1 :: l2 :: l3 :: rest) 2 = .ok l2 := rfl
  have h3 : byteAt (ty :: l1 :: l2 :: l3 :: rest) 3 = .ok l3 := rfl
  have hadd : add w 4 (u32FromBe 0 l1 l2 l3).toNat = .ok (4 + (u32FromBe 0 l1 l2 l3).toNat) :=
    add_small hw (by omega)
  have hlong : ¬ (ty :: l1 :: l2 :: l3 :: rest).length < 4 := by simp
  unfold stripHandshakeHeader SeeHandshake.stripHandshakeHeader
  simp only [if_neg hlong, htype, h1, h2, h3, asUsize_eq hw hlt, hadd, lift_ok, pure_bind]
  by_cases hty : ty ≠ expectedType
  · rw [if_pos hty, if_pos hty]
    rfl
  · rw [if_neg hty, if_neg hty]
    by_cases hrest : rest.length < (u32FromBe 0 l1 l2 l3).toNat
    · rw [if_pos (by simp only [List.length_cons]; omega), if_pos hrest]
      rfl
    · have hbody : slice (ty :: l1 :: l2 :: l3 :: rest) 4 (4 + (u32FromBe 0 l1 l2 l3).toNat) =
          .ok (rest.take (u32FromBe 0 l1 l2 l3).toNat) :=
        slice_add (by simp only [List.length_cons]; omega)
      rw [if_neg (by simp only [List.length_cons]; omega), if_neg hrest, hbody]
      rfl

/-! ## Hellos -/

theorem readExtensions_eq (hw : 32 ≤ w) (cursor : Bytes) :
    readExtensions w cursor = embed (SeeHandshake.readExtensions cursor) := by
  unfold readExtensions SeeHandshake.readExtensions
  by_cases hempty : cursor.isEmpty
  · rw [if_pos hempty, if_pos hempty]
    rfl
  · rw [if_neg hempty, if_neg hempty]
    refine bind_embed (readU16_eq cursor) fun r => ?_
    obtain ⟨extLen, cursor⟩ := r
    refine bind_embed (readBytes_eq cursor extLen.toNat) fun r => ?_
    obtain ⟨extBytes, tail⟩ := r
    simp only [walkExtensionBodies_eq hw]
    rfl

theorem decodeClientHello_eq (hw : 32 ≤ w) (bytes : Bytes) :
    decodeClientHello w bytes = embed (SeeHandshake.decodeClientHello bytes) := by
  unfold decodeClientHello SeeHandshake.decodeClientHello
  refine bind_embed (stripHandshakeHeader_eq hw bytes 1) fun cursor => ?_
  refine bind_embed (readU16_eq cursor) fun r => ?_
  obtain ⟨legacyVersion, cursor⟩ := r
  refine bind_embed (readArray32_eq cursor) fun r => ?_
  obtain ⟨random, cursor⟩ := r
  refine bind_embed (readU8_eq cursor) fun r => ?_
  obtain ⟨sessionIdLen, cursor⟩ := r
  refine bind_embed (readBytes_eq cursor sessionIdLen.toNat) fun r => ?_
  obtain ⟨sessionId, cursor⟩ := r
  refine bind_embed (readU16_eq cursor) fun r => ?_
  obtain ⟨cipherSuitesLen, cursor⟩ := r
  simp only
  by_cases hodd : cipherSuitesLen.toNat % 2 ≠ 0
  · rw [if_pos hodd, if_pos hodd]
    rfl
  rw [if_neg hodd, if_neg hodd]
  refine bind_embed (readBytes_eq cursor cipherSuitesLen.toNat) fun r => ?_
  obtain ⟨cipherBytes, cursor⟩ := r
  simp only [u16Chunks_eq, lift_ok, pure_bind]
  refine bind_embed (readU8_eq cursor) fun r => ?_
  obtain ⟨compressionLen, cursor⟩ := r
  refine bind_embed (readBytes_eq cursor compressionLen.toNat) fun r => ?_
  obtain ⟨compressionMethods, cursor⟩ := r
  exact bind_embed (readExtensions_eq hw cursor) fun extensions => rfl

theorem decodeServerHello_eq (hw : 32 ≤ w) (bytes : Bytes) :
    decodeServerHello w bytes = embed (SeeHandshake.decodeServerHello bytes) := by
  unfold decodeServerHello SeeHandshake.decodeServerHello
  refine bind_embed (stripHandshakeHeader_eq hw bytes 2) fun cursor => ?_
  refine bind_embed (readU16_eq cursor) fun r => ?_
  obtain ⟨legacyVersion, cursor⟩ := r
  refine bind_embed (readArray32_eq cursor) fun r => ?_
  obtain ⟨random, cursor⟩ := r
  refine bind_embed (readU8_eq cursor) fun r => ?_
  obtain ⟨sessionIdLen, cursor⟩ := r
  refine bind_embed (readBytes_eq cursor sessionIdLen.toNat) fun r => ?_
  obtain ⟨sessionIdEcho, cursor⟩ := r
  refine bind_embed (readU16_eq cursor) fun r => ?_
  obtain ⟨cipherCode, cursor⟩ := r
  refine bind_embed (readU8_eq cursor) fun r => ?_
  obtain ⟨compressionMethod, cursor⟩ := r
  exact bind_embed (readExtensions_eq hw cursor) fun extensions => rfl

theorem firstKeyShareGroup_eq (hw : 32 ≤ w) (bytes : Bytes) :
    firstKeyShareGroup w bytes = embed (SeeHandshake.firstKeyShareGroup bytes) := by
  rcases bytes with - | ⟨b0, - | ⟨b1, - | ⟨b2, - | ⟨b3, rest⟩⟩⟩⟩
  · rfl
  · rfl
  · rfl
  · rfl
  have hlt := (u16FromBe b0 b1).toNat_lt
  have hlen : u16At (b0 :: b1 :: b2 :: b3 :: rest) 0 1 = .ok (u16FromBe b0 b1) := rfl
  have hgroup : u16At (b0 :: b1 :: b2 :: b3 :: rest) 2 3 = .ok (u16FromBe b2 b3) := rfl
  have hadd : add w (u16FromBe b0 b1).toNat 2 = .ok ((u16FromBe b0 b1).toNat + 2) :=
    add_small hw (by omega)
  have hshort : ¬ (b0 :: b1 :: b2 :: b3 :: rest).length < 4 := by simp
  have hlong : (b0 :: b1 :: b2 :: b3 :: rest).length ≥ 4 := by simp
  unfold firstKeyShareGroup SeeHandshake.firstKeyShareGroup
  simp only [if_neg hshort, hlen, hgroup, hadd, lift_ok, pure_bind]
  by_cases hlist : (u16FromBe b0 b1).toNat + 2 = rest.length + 4
  · rw [if_pos ⟨hlist, hlong⟩, if_pos hlist]
    rfl
  · rw [if_neg (fun h => hlist h.1), if_neg hlist]
    rfl

/-! ## Records -/

/-- The state of the loop over records: the cursor and the records so far. -/
def emitRecord (s : ℕ × List TlsRecord) (r : TlsRecord) (n : ℕ) : ℕ × List TlsRecord :=
  (s.1 + n, s.2 ++ [r])

theorem foldl_emitRecord (xs : Bytes) (cursor : ℕ) (records : List TlsRecord) :
    (recordSplitter.peel xs).frames.foldl (fun s f => emitRecord s f.1 f.2.length) (cursor, records) =
      (cursor + (xs.length - (recordSplitter.peel xs).rest.length),
        records ++ (recordSplitter.peel xs).frames.map Prod.fst) := by
  induction xs using recordSplitter.peel_induction generalizing cursor records with
  | need xs h =>
    rw [Cutter.peel_need (S := recordSplitter.toCutter) h]
    simp only [List.foldl_nil, List.map_nil, List.append_nil, Nat.sub_self, Nat.add_zero]
  | bad xs e h =>
    rw [Cutter.peel_bad (S := recordSplitter.toCutter) h]
    simp only [List.foldl_nil, List.map_nil, List.append_nil, Nat.sub_self, Nat.add_zero]
  | frame xs r n h ih =>
    have hle := (recordSplitter.frame_bounds _ _ _ h).2
    have hrest := recordSplitter.rest_length_le (xs.drop n)
    have hdrop : (xs.drop n).length = xs.length - n := List.length_drop
    rw [Cutter.peel_frame (S := recordSplitter.toCutter) h, List.foldl_cons, emitRecord,
      List.length_take, Nat.min_eq_left hle, ih]
    simp only [List.map_cons, List.append_assoc, List.singleton_append, Prod.mk.injEq, and_true]
    omega

/-- One turn of the loop over records, at a cursor inside the buffer. -/
theorem recordTurn_eq (hw : 32 ≤ w) (buf : Slice w) (s : ℕ × List TlsRecord)
    (hs : s.1 ≤ buf.bytes.length) :
    recordTurn w buf.bytes s =
      embed (turn recordCut (fun s => buf.bytes.drop s.1) emitRecord
        (fun n => Except.error (oversizedRecord n)) s) := by
  obtain ⟨cursor, records⟩ := s
  simp only at hs
  have hbuf := buf.length_lt
  -- A slice leaves half of the range of `usize` to what is added to its length.
  have hhalf : 2 ^ w = 2 ^ (w - 1) * 2 := by
    rw [← Nat.pow_succ, Nat.succ_eq_add_one, Nat.sub_add_cancel (by omega)]
  have hword : 2 ^ 31 ≤ 2 ^ (w - 1) := Nat.pow_le_pow_right Nat.two_pos (by omega)
  have hsub : sub buf.bytes.length cursor = .ok (buf.bytes.length - cursor) := sub_eq hs
  have hlength : (buf.bytes.drop cursor).length = buf.bytes.length - cursor := List.length_drop
  have hheaderEnd : add w cursor RECORD_HEADER_LEN = .ok (cursor + RECORD_HEADER_LEN) :=
    add_eq (by rw [RECORD_HEADER_LEN]; omega)
  unfold recordTurn turn recordCut
  simp only [hsub, hheaderEnd, lift_ok, pure_bind]
  rcases hbytes : buf.bytes.drop cursor with - | ⟨ty, - | ⟨v1, - | ⟨v2, - | ⟨l1, - | ⟨l2, rest⟩⟩⟩⟩⟩
  iterate 5
    · rw [hbytes] at hlength
      simp only [List.length_cons, List.length_nil] at hlength
      rw [if_neg (by rw [RECORD_HEADER_LEN]; omega)]
      rfl
  rw [hbytes] at hlength
  simp only [List.length_cons] at hlength
  have hlt := (u16FromBe l1 l2).toNat_lt
  have hheader : slice buf.bytes cursor (cursor + RECORD_HEADER_LEN) = .ok [ty, v1, v2, l1, l2] := by
    rw [slice_add (by rw [RECORD_HEADER_LEN]; omega), hbytes]
    rfl
  have htype : byteAt [ty, v1, v2, l1, l2] 0 = .ok ty := rfl
  have hversion : u16At [ty, v1, v2, l1, l2] 1 2 = .ok (u16FromBe v1 v2) := rfl
  have hlen : u16At [ty, v1, v2, l1, l2] 3 4 = .ok (u16FromBe l1 l2) := rfl
  have hadd : add w (cursor + RECORD_HEADER_LEN) (u16FromBe l1 l2).toNat =
      .ok (cursor + RECORD_HEADER_LEN + (u16FromBe l1 l2).toNat) :=
    add_eq (by rw [RECORD_HEADER_LEN]; omega)
  rw [if_pos (by rw [RECORD_HEADER_LEN]; omega)]
  simp only [hheader, htype, hversion, hlen, hadd, lift_ok, pure_bind]
  by_cases hmax : (u16FromBe l1 l2).toNat > MAX_RECORD_PAYLOAD
  · rw [if_pos hmax, if_pos hmax]
    rfl
  rw [if_neg hmax, if_neg hmax]
  by_cases hrest : rest.length < (u16FromBe l1 l2).toNat
  · rw [if_pos (by rw [RECORD_HEADER_LEN]; omega), if_pos hrest]
    rfl
  have hbehind : buf.bytes.drop (cursor + RECORD_HEADER_LEN) = rest := by
    rw [← List.drop_drop, hbytes]
    rfl
  have hpayload : slice buf.bytes (cursor + RECORD_HEADER_LEN)
      (cursor + RECORD_HEADER_LEN + (u16FromBe l1 l2).toNat) =
        .ok (rest.take (u16FromBe l1 l2).toNat) := by
    rw [slice_add (by rw [RECORD_HEADER_LEN]; omega), hbehind]
  rw [if_neg (by rw [RECORD_HEADER_LEN]; omega), if_neg hrest, hpayload, Nat.add_assoc]
  rfl

theorem parseRecords_eq (hw : 32 ≤ w) (buf : Slice w) :
    parseRecords w buf = embed (SeeHandshake.parseRecords buf.bytes) := by
  have hfuel : (buf.bytes.drop (Prod.fst (0, ([] : List TlsRecord)))).length < buf.bytes.length + 1 :=
    Nat.lt_succ_self _
  have hloop : loop (recordTurn w buf.bytes) (buf.bytes.length + 1) (0, []) =
      embed (outcome emitRecord (fun n => Except.error (oversizedRecord n)) (0, [])
        (recordSplitter.peel buf.bytes)) := by
    refine loop_eq (S := recordSplitter.toCutter)
      (I := fun (s : ℕ × List TlsRecord) => s.1 ≤ buf.bytes.length) (recordTurn_eq hw buf)
      (fun _ _ _ _ => rfl) ?_ (Nat.zero_le _) hfuel
    intro s r n hs hcut
    have hle := (recordSplitter.frame_bounds _ _ _ hcut).2
    rw [List.length_drop] at hle
    constructor
    · rw [emitRecord]
      omega
    · rw [emitRecord, List.drop_drop]
  unfold parseRecords
  rw [hloop, SeeHandshake.parseRecords_eq]
  unfold outcome
  cases hstop : (recordSplitter.peel buf.bytes).stop with
  | some n => rfl
  | none =>
    simp only
    rw [foldl_emitRecord, Nat.zero_add, List.nil_append]
    rfl

end SeeHandshake.Checked

namespace SeeHandshake

open Lib Checked

/-- The wire decoders return on any bytes what they compute, and do not panic: on a machine of at
least 32 bits every index and slice is in bounds, no sum overflows, and every loop ends. -/
theorem decoders_never_panic {w : ℕ} (hw : 32 ≤ w) (buf : Slice w) (bytes : Bytes) (extType : UInt16) :
    (Checked.parseRecords w buf).run = .ok (parseRecords buf.bytes) ∧
    (Checked.decodeClientHello w bytes).run = .ok (decodeClientHello bytes) ∧
    (Checked.decodeServerHello w bytes).run = .ok (decodeServerHello bytes) ∧
    Checked.decodeExtension w extType bytes = .ok (decodeExtension extType bytes) ∧
    (Checked.firstKeyShareGroup w bytes).run = .ok (firstKeyShareGroup bytes) := by
  refine ⟨?_, ?_, ?_, Checked.decodeExtension_eq hw extType bytes, ?_⟩
  · rw [Checked.parseRecords_eq hw]
    rfl
  · rw [Checked.decodeClientHello_eq hw]
    rfl
  · rw [Checked.decodeServerHello_eq hw]
    rfl
  · rw [Checked.firstKeyShareGroup_eq hw]
    rfl

/-- What is truncated is refused. -/
theorem decoders_never_panic_truncated :
    (Checked.parseRecords 32 ⟨[22, 3, 3, 0, 1, 7, 22], by decide⟩).run =
      .ok (.ok ([⟨.handshake, 771, [7]⟩], 6)) ∧
    (Checked.decodeClientHello 32 [0, 2, 0]).run =
      .ok (.error (.parse "handshake header truncated")) ∧
    (Checked.decodeServerHello 32 [0, 2, 0]).run =
      .ok (.error (.parse "handshake header truncated")) ∧
    Checked.decodeExtension 32 41 [0, 2, 0] =
      .ok ⟨41, "pre_shared_key", [0, 2, 0], .opaqueBody⟩ ∧
    (Checked.firstKeyShareGroup 32 [0, 2, 0]).run = .ok none :=
  decoders_never_panic (by decide) ⟨[22, 3, 3, 0, 1, 7, 22], by decide⟩ [0, 2, 0] 41

end SeeHandshake
