import SeeHandshake.Parser.Checked
import SeeHandshake.Parser.ExtensionForms
import SeeHandshake.Proofs.RecordProofs

/-!
# Proofs: the extension decoders do not panic

Line by line, the checked decoders compute what the decoders compute: every index and slice is in
bounds, no addition overflows, and every loop ends.
-/

namespace SeeHandshake.Checked

open Lib Panicking Embeds

variable {w : ℕ}

/-! ## Reading numbers -/

theorem u16Chunks_eq (xs : Bytes) : u16Chunks xs = .ok (SeeHandshake.u16Chunks xs) := by
  unfold u16Chunks
  induction xs using chunksExact2.induct with
  | case1 hi lo rest ih =>
    have hpair : u16At [hi, lo] 0 1 = .ok (u16FromBe hi lo) := rfl
    rw [chunksExact2, List.mapM_cons, hpair, ih]
    rfl
  | case2 xs hxs =>
    rcases xs with - | ⟨hi, - | ⟨lo, rest⟩⟩
    · rfl
    · rfl
    · exact absurd rfl (hxs hi lo rest)

/-- A byte behind a known position. -/
theorem byteAt_of_drop {xs ys : Bytes} {n j : ℕ} {x : UInt8} (h : xs.drop n = ys) (i : ℕ)
    (hx : ys[i]? = some x) (hj : j = n + i) : byteAt xs j = .ok x := by
  refine index_eq ?_
  rw [hj, ← List.getElem?_drop, h, hx]

theorem readOpaqueU16_eq (hw : 32 ≤ w) (body : Bytes) :
    readOpaqueU16 w body = embed (SeeHandshake.readOpaqueU16 body) := by
  rcases body with - | ⟨b0, - | ⟨b1, rest⟩⟩
  · rfl
  · rfl
  have hlt := (u16FromBe b0 b1).toNat_lt
  have hlen : u16At (b0 :: b1 :: rest) 0 1 = .ok (u16FromBe b0 b1) := rfl
  have hadd : add w 2 (u16FromBe b0 b1).toNat = .ok (2 + (u16FromBe b0 b1).toNat) :=
    add_small hw (by omega)
  have hfrom : sliceFrom (b0 :: b1 :: rest) 2 = .ok rest := sliceFrom_eq (by simp)
  have hlong : ¬ (b0 :: b1 :: rest).length < 2 := by simp
  unfold readOpaqueU16 SeeHandshake.readOpaqueU16
  simp only [if_neg hlong, hlen, hadd, hfrom, lift_ok, pure_bind]
  by_cases hrest : rest.length = (u16FromBe b0 b1).toNat
  · rw [if_neg (by simp only [List.length_cons]; omega), if_neg (not_not.mpr hrest)]
    rfl
  · rw [if_pos (by simp only [List.length_cons]; omega), if_pos hrest]
    rfl

/-! ## Entries -/

theorem serverNameTurn_eq (hw : 32 ≤ w) (s : Bytes × List ServerNameEntry) :
    serverNameTurn w s = embed (turn cutServerName Prod.fst emitEntry (fun _ => none) s) := by
  obtain ⟨cursor, entries⟩ := s
  rcases cursor with - | ⟨nameType, - | ⟨l1, - | ⟨l2, rest⟩⟩⟩
  · rfl
  · rfl
  · rfl
  have hlt := (u16FromBe l1 l2).toNat_lt
  have htype : byteAt (nameType :: l1 :: l2 :: rest) 0 = .ok nameType := rfl
  have hlen : u16At (nameType :: l1 :: l2 :: rest) 1 2 = .ok (u16FromBe l1 l2) := rfl
  have hadd : add w 3 (u16FromBe l1 l2).toNat = .ok (3 + (u16FromBe l1 l2).toNat) :=
    add_small hw (by omega)
  have hlong : (nameType :: l1 :: l2 :: rest).length ≥ 3 := by simp
  unfold serverNameTurn turn cutServerName
  simp only [if_pos hlong, htype, hlen, hadd, lift_ok, pure_bind]
  by_cases hrest : rest.length < (u16FromBe l1 l2).toNat
  · rw [if_pos (by simp only [List.length_cons]; omega), if_pos hrest]
    rfl
  · have hname : slice (nameType :: l1 :: l2 :: rest) 3 (3 + (u16FromBe l1 l2).toNat) =
        .ok (rest.take (u16FromBe l1 l2).toNat) :=
      slice_add (by simp only [List.length_cons]; omega)
    have hfrom : sliceFrom (nameType :: l1 :: l2 :: rest) (3 + (u16FromBe l1 l2).toNat) =
        .ok ((nameType :: l1 :: l2 :: rest).drop (3 + (u16FromBe l1 l2).toNat)) :=
      sliceFrom_eq (by simp only [List.length_cons]; omega)
    rw [if_neg (by simp only [List.length_cons]; omega), if_neg hrest]
    simp only [hname, hfrom, lift_ok, pure_bind]
    rfl

theorem alpnTurn_eq (s : Bytes × List Bytes) :
    alpnTurn s = embed (turn cutAlpn Prod.fst emitEntry (fun _ => none) s) := by
  obtain ⟨cursor, out⟩ := s
  rcases cursor with - | ⟨len, rest⟩
  · rfl
  unfold alpnTurn turn cutAlpn
  simp only
  by_cases hrest : rest.length < len.toNat
  · rw [if_pos hrest, if_pos hrest]
    rfl
  · have hle : len.toNat ≤ rest.length := Nat.not_lt.mp hrest
    rw [if_neg hrest, if_neg hrest]
    simp only [sliceTo_eq hle, sliceFrom_eq hle, lift_ok, pure_bind, Nat.add_comm 1]
    rfl

theorem keyShareTurn_eq (hw : 32 ≤ w) (s : Bytes × List KeyShareEntry) :
    keyShareTurn w s = embed (turn cutKeyShare Prod.fst emitEntry (fun _ => none) s) := by
  obtain ⟨cursor, out⟩ := s
  rcases cursor with - | ⟨g1, - | ⟨g2, - | ⟨l1, - | ⟨l2, rest⟩⟩⟩⟩
  · rfl
  · rfl
  · rfl
  · rfl
  have hlt := (u16FromBe l1 l2).toNat_lt
  have hgroup : u16At (g1 :: g2 :: l1 :: l2 :: rest) 0 1 = .ok (u16FromBe g1 g2) := rfl
  have hlen : u16At (g1 :: g2 :: l1 :: l2 :: rest) 2 3 = .ok (u16FromBe l1 l2) := rfl
  have hadd : add w 4 (u16FromBe l1 l2).toNat = .ok (4 + (u16FromBe l1 l2).toNat) :=
    add_small hw (by omega)
  have hlong : (g1 :: g2 :: l1 :: l2 :: rest).length ≥ 4 := by simp
  unfold keyShareTurn turn cutKeyShare
  simp only [if_pos hlong, hgroup, hlen, hadd, lift_ok, pure_bind]
  by_cases hrest : rest.length < (u16FromBe l1 l2).toNat
  · rw [if_pos (by simp only [List.length_cons]; omega), if_pos hrest]
    rfl
  · have hkey : slice (g1 :: g2 :: l1 :: l2 :: rest) 4 (4 + (u16FromBe l1 l2).toNat) =
        .ok (rest.take (u16FromBe l1 l2).toNat) :=
      slice_add (by simp only [List.length_cons]; omega)
    have hfrom : sliceFrom (g1 :: g2 :: l1 :: l2 :: rest) (4 + (u16FromBe l1 l2).toNat) =
        .ok ((g1 :: g2 :: l1 :: l2 :: rest).drop (4 + (u16FromBe l1 l2).toNat)) :=
      sliceFrom_eq (by simp only [List.length_cons]; omega)
    rw [if_neg (by simp only [List.length_cons]; omega), if_neg hrest]
    simp only [hkey, hfrom, lift_ok, pure_bind]
    rfl

theorem pskIdentityTurn_eq (hw : 32 ≤ w) (s : Bytes × List PskIdentity) :
    pskIdentityTurn w s = embed (turn cutPskIdentity Prod.fst emitEntry (fun _ => none) s) := by
  obtain ⟨cursor, identities⟩ := s
  rcases cursor with - | ⟨l1, - | ⟨l2, rest⟩⟩
  · rfl
  · rfl
  have hlt := (u16FromBe l1 l2).toNat_lt
  have hlen : u16At (l1 :: l2 :: rest) 0 1 = .ok (u16FromBe l1 l2) := rfl
  have hlong : (l1 :: l2 :: rest).length ≥ 2 := by simp
  have hadd : ∀ k, k ≤ 6 → add w k (u16FromBe l1 l2).toNat = .ok (k + (u16FromBe l1 l2).toNat) :=
    fun k hk => add_small hw (by omega)
  have hend : add w (2 + (u16FromBe l1 l2).toNat) 4 = .ok (2 + (u16FromBe l1 l2).toNat + 4) :=
    add_small hw (by omega)
  unfold pskIdentityTurn turn cutPskIdentity
  simp only [if_pos hlong, hlen, hadd 2 (by omega), hend, lift_ok, pure_bind]
  have hdrop : (rest.drop (u16FromBe l1 l2).toNat).length = rest.length - (u16FromBe l1 l2).toNat :=
    List.length_drop
  by_cases hrest : rest.length < (u16FromBe l1 l2).toNat + 4
  · -- The entry is truncated before the last byte of the age.
    rw [if_pos (by simp only [List.length_cons]; omega)]
    rcases hage : rest.drop (u16FromBe l1 l2).toNat with - | ⟨a0, - | ⟨a1, - | ⟨a2, - | ⟨a3, tail⟩⟩⟩⟩
    · rfl
    · rfl
    · rfl
    · rfl
    · rw [hage] at hdrop
      simp only [List.length_cons] at hdrop
      omega
  · rcases hage : rest.drop (u16FromBe l1 l2).toNat with - | ⟨a0, - | ⟨a1, - | ⟨a2, - | ⟨a3, tail⟩⟩⟩⟩
    iterate 4
      · rw [hage] at hdrop
        simp only [List.length_cons, List.length_nil] at hdrop
        omega
    have hbytes : (l1 :: l2 :: rest).drop (2 + (u16FromBe l1 l2).toNat) = a0 :: a1 :: a2 :: a3 :: tail := by
      rw [Nat.add_comm]
      exact hage
    have h0 : byteAt (l1 :: l2 :: rest) (2 + (u16FromBe l1 l2).toNat) = .ok a0 :=
      byteAt_of_drop hbytes 0 rfl rfl
    have h1 : byteAt (l1 :: l2 :: rest) (3 + (u16FromBe l1 l2).toNat) = .ok a1 :=
      byteAt_of_drop hbytes 1 rfl (by omega)
    have h2 : byteAt (l1 :: l2 :: rest) (4 + (u16FromBe l1 l2).toNat) = .ok a2 :=
      byteAt_of_drop hbytes 2 rfl (by omega)
    have h3 : byteAt (l1 :: l2 :: rest) (5 + (u16FromBe l1 l2).toNat) = .ok a3 :=
      byteAt_of_drop hbytes 3 rfl (by omega)
    have hidentity : slice (l1 :: l2 :: rest) 2 (2 + (u16FromBe l1 l2).toNat) =
        .ok (rest.take (u16FromBe l1 l2).toNat) :=
      slice_add (by simp only [List.length_cons]; omega)
    have hfrom : sliceFrom (l1 :: l2 :: rest) (2 + (u16FromBe l1 l2).toNat + 4) =
        .ok ((l1 :: l2 :: rest).drop (2 + (u16FromBe l1 l2).toNat + 4)) :=
      sliceFrom_eq (by simp only [List.length_cons]; omega)
    rw [if_neg (by simp only [List.length_cons]; omega)]
    simp only [hidentity, hadd 3 (by omega), hadd 4 (by omega), hadd 5 (by omega), h0, h1, h2, h3,
      hfrom, lift_ok, pure_bind]
    rfl

/-! ## Lists of entries -/

section Entries

variable {δ : Type} {S : Cutter UInt8 δ Unit}
  {body : Bytes × List δ → OptionT Panicking (ForInStep (Bytes × List δ))}

theorem entries_eq (hbody : ∀ s, body s = embed (turn S.cut Prod.fst emitEntry (fun _ => none) s))
    (xs : Bytes) :
    loop body (xs.length + 1) (xs, []) =
      embed (outcome emitEntry (fun _ => none) (xs, []) (S.peel xs)) := by
  have hfuel : (Prod.fst (xs, ([] : List δ))).length < xs.length + 1 := Nat.lt_succ_self _
  exact loop_eq (I := fun _ => True) (fun s _ => hbody s) (fun _ _ _ _ => rfl)
    (fun _ _ _ _ _ => ⟨trivial, rfl⟩) trivial hfuel

/-- A loop over entries gives up at an entry that its slice does not hold. -/
theorem entries_of_some (hbody : ∀ s, body s = embed (turn S.cut Prod.fst emitEntry (fun _ => none) s))
    {xs : Bytes} {e : Unit} (h : (S.peel xs).stop = some e) :
    loop body (xs.length + 1) (xs, []) = embed none := by
  rw [entries_eq hbody]
  unfold outcome
  rw [h]

/-- Otherwise it returns the entries, and ends at what is too short for one. -/
theorem entries_of_none (hbody : ∀ s, body s = embed (turn S.cut Prod.fst emitEntry (fun _ => none) s))
    {xs : Bytes} (h : (S.peel xs).stop = none) :
    loop body (xs.length + 1) (xs, []) =
      embed (some ((S.peel xs).rest, (S.peel xs).frames.map Prod.fst)) := by
  rw [entries_eq hbody]
  unfold outcome
  rw [h]
  simp only
  rw [foldl_emitEntry, List.nil_append]
  rfl

end Entries

theorem decodeServerName_eq (hw : 32 ≤ w) (body : Bytes) :
    decodeServerName w body = embed (SeeHandshake.decodeServerName body) := by
  rcases body with - | ⟨b0, - | ⟨b1, rest⟩⟩
  · rfl
  · rfl
  have hlt := (u16FromBe b0 b1).toNat_lt
  have hlen : u16At (b0 :: b1 :: rest) 0 1 = .ok (u16FromBe b0 b1) := rfl
  have hadd : add w 2 (u16FromBe b0 b1).toNat = .ok (2 + (u16FromBe b0 b1).toNat) :=
    add_small hw (by omega)
  have hlong : ¬ (b0 :: b1 :: rest).length < 2 := by simp
  unfold decodeServerName SeeHandshake.decodeServerName
  simp only [if_neg hlong, hlen, hadd, lift_ok, pure_bind]
  by_cases hrest : rest.length < (u16FromBe b0 b1).toNat
  · rw [if_pos (by simp only [List.length_cons]; omega), if_pos hrest]
    rfl
  · have hlist : slice (b0 :: b1 :: rest) 2 (2 + (u16FromBe b0 b1).toNat) =
        .ok (rest.take (u16FromBe b0 b1).toNat) :=
      slice_add (by simp only [List.length_cons]; omega)
    have hpeel : peelLoop cutServerName ((b0 :: b1 :: rest).length + 1)
        (rest.take (u16FromBe b0 b1).toNat) =
          ServerNameEntry.framing.peel (rest.take (u16FromBe b0 b1).toNat) :=
      Cutter.peelLoop_eq_peel (S := ServerNameEntry.framing.toCutter) (by
        simp only [List.length_take, List.length_cons]; omega)
    rw [if_neg (by simp only [List.length_cons]; omega), if_neg hrest, hpeel]
    simp only [hlist, lift_ok, pure_bind]
    cases hstop : (ServerNameEntry.framing.peel (rest.take (u16FromBe b0 b1).toNat)).stop with
    | none => rw [entries_of_none (serverNameTurn_eq hw) hstop]; rfl
    | some e => rw [entries_of_some (serverNameTurn_eq hw) hstop]; rfl

theorem decodeSupportedGroups_eq (hw : 32 ≤ w) (body : Bytes) :
    decodeSupportedGroups w body = embed (SeeHandshake.decodeSupportedGroups body) := by
  unfold decodeSupportedGroups SeeHandshake.decodeSupportedGroups
  refine bind_embed (readOpaqueU16_eq hw body) fun list => ?_
  by_cases hodd : list.length % 2 ≠ 0
  · rw [if_pos hodd, if_pos hodd]
    rfl
  · rw [if_neg hodd, if_neg hodd]
    simp only [u16Chunks_eq, lift_ok, pure_bind]
    rfl

theorem decodeSignatureAlgorithms_eq (hw : 32 ≤ w) (body : Bytes) :
    decodeSignatureAlgorithms w body = embed (SeeHandshake.decodeSignatureAlgorithms body) := by
  unfold decodeSignatureAlgorithms SeeHandshake.decodeSignatureAlgorithms
  refine bind_embed (readOpaqueU16_eq hw body) fun list => ?_
  by_cases hodd : list.length % 2 ≠ 0
  · rw [if_pos hodd, if_pos hodd]
    rfl
  · rw [if_neg hodd, if_neg hodd]
    simp only [u16Chunks_eq, lift_ok]
    rfl

theorem decodeAlpn_eq (hw : 32 ≤ w) (body : Bytes) :
    decodeAlpn w body = embed (SeeHandshake.decodeAlpn body) := by
  unfold decodeAlpn SeeHandshake.decodeAlpn
  refine bind_embed (readOpaqueU16_eq hw body) fun list => ?_
  have hpeel : peelLoop cutAlpn (list.length + 1) list = alpnFraming.peel list :=
    Cutter.peelLoop_eq_peel (S := alpnFraming.toCutter) (Nat.lt_succ_self _)
  simp only [hpeel]
  cases hstop : (alpnFraming.peel list).stop with
  | none => rw [entries_of_none alpnTurn_eq hstop]; rfl
  | some e => rw [entries_of_some alpnTurn_eq hstop]; rfl

theorem decodeSupportedVersions_eq (hw : 32 ≤ w) (body : Bytes) :
    decodeSupportedVersions w body = embed (SeeHandshake.decodeSupportedVersions body) := by
  rcases body with - | ⟨b0, rest⟩
  · rfl
  by_cases htwo : (b0 :: rest).length = 2
  · obtain ⟨b1, rfl⟩ : ∃ b1, rest = [b1] := by
      rw [List.length_cons] at htwo
      exact List.length_eq_one_iff.mp (by omega)
    rfl
  · have hlt := b0.toNat_lt
    have hlen : byteAt (b0 :: rest) 0 = .ok b0 := rfl
    have hadd : add w 1 b0.toNat = .ok (1 + b0.toNat) := add_small hw (by omega)
    have hfrom : sliceFrom (b0 :: rest) 1 = .ok rest := sliceFrom_eq (by simp)
    have hfull : ¬ (b0 :: rest).isEmpty = true := by simp
    have htotal : SeeHandshake.decodeSupportedVersions (b0 :: rest) =
        if rest.length ≠ b0.toNat ∨ b0.toNat % 2 ≠ 0 then none
        else some (SeeHandshake.u16Chunks rest) := by
      rcases rest with - | ⟨b1, - | ⟨b2, rest⟩⟩
      · rfl
      · exact absurd rfl htwo
      · rfl
    have hprefix : (b0 :: rest).length ≠ 1 + b0.toNat ↔ rest.length ≠ b0.toNat := by
      rw [List.length_cons]
      omega
    rw [htotal]
    unfold decodeSupportedVersions
    simp only [if_neg htwo, if_neg hfull, hlen, hadd, hfrom, hprefix, lift_ok, pure_bind]
    by_cases hbad : rest.length ≠ b0.toNat ∨ b0.toNat % 2 ≠ 0
    · rw [if_pos hbad, if_pos hbad]
      rfl
    · rw [if_neg hbad, if_neg hbad]
      simp only [u16Chunks_eq, lift_ok]
      rfl

theorem decodePskKeyExchangeModes_eq (hw : 32 ≤ w) (body : Bytes) :
    decodePskKeyExchangeModes w body = embed (SeeHandshake.decodePskKeyExchangeModes body) := by
  rcases body with - | ⟨b0, rest⟩
  · rfl
  have hlt := b0.toNat_lt
  have hlen : byteAt (b0 :: rest) 0 = .ok b0 := rfl
  have hadd : add w 1 b0.toNat = .ok (1 + b0.toNat) := add_small hw (by omega)
  have hfrom : sliceFrom (b0 :: rest) 1 = .ok rest := sliceFrom_eq (by simp)
  have hfull : ¬ (b0 :: rest).isEmpty = true := by simp
  unfold decodePskKeyExchangeModes SeeHandshake.decodePskKeyExchangeModes
  simp only [if_neg hfull, hlen, hadd, hfrom, lift_ok, pure_bind]
  by_cases hrest : rest.length ≠ b0.toNat
  · rw [if_pos (by rw [List.length_cons]; omega), if_pos hrest]
    rfl
  · rw [if_neg (by rw [List.length_cons]; omega), if_neg hrest]
    rfl

theorem parseKeyShareEntries_eq (hw : 32 ≤ w) (cursor : Bytes) :
    parseKeyShareEntries w cursor = embed (SeeHandshake.parseKeyShareEntries cursor) := by
  have hpeel : peelLoop cutKeyShare (cursor.length + 1) cursor = KeyShareEntry.framing.peel cursor :=
    Cutter.peelLoop_eq_peel (S := KeyShareEntry.framing.toCutter) (Nat.lt_succ_self _)
  unfold parseKeyShareEntries SeeHandshake.parseKeyShareEntries
  simp only [hpeel]
  cases hstop : (KeyShareEntry.framing.peel cursor).stop with
  | some e => rw [entries_of_some (keyShareTurn_eq hw) hstop]; rfl
  | none =>
    rw [entries_of_none (keyShareTurn_eq hw) hstop]
    simp only
    by_cases hempty : (KeyShareEntry.framing.peel cursor).rest.isEmpty
    · rw [if_pos hempty]
      exact if_pos hempty
    · rw [if_neg hempty]
      exact if_neg hempty

theorem decodeKeyShare_eq (hw : 32 ≤ w) (body : Bytes) :
    decodeKeyShare w body = embed (SeeHandshake.decodeKeyShare body) := by
  unfold decodeKeyShare
  rcases body with - | ⟨b0, - | ⟨b1, - | ⟨b2, - | ⟨b3, rest⟩⟩⟩⟩
  iterate 4 exact parseKeyShareEntries_eq hw _
  have hlt := (u16FromBe b0 b1).toNat_lt
  have hlen : u16At (b0 :: b1 :: b2 :: b3 :: rest) 0 1 = .ok (u16FromBe b0 b1) := rfl
  have hadd : add w 2 (u16FromBe b0 b1).toNat = .ok (2 + (u16FromBe b0 b1).toNat) :=
    add_small hw (by omega)
  have hfrom : sliceFrom (b0 :: b1 :: b2 :: b3 :: rest) 2 = .ok (b2 :: b3 :: rest) :=
    sliceFrom_eq (by simp)
  have hlong : (b0 :: b1 :: b2 :: b3 :: rest).length ≥ 4 := by simp
  unfold SeeHandshake.decodeKeyShare
  simp only [if_pos hlong, hlen, hadd, hfrom, lift_ok, pure_bind]
  by_cases hlist : rest.length + 2 = (u16FromBe b0 b1).toNat
  · rw [if_pos (by simp only [List.length_cons]; omega), if_pos hlist]
    exact parseKeyShareEntries_eq hw _
  · rw [if_neg (by simp only [List.length_cons]; omega), if_neg hlist]
    exact parseKeyShareEntries_eq hw _

theorem decodePreSharedKey_eq (hw : 32 ≤ w) (body : Bytes) :
    decodePreSharedKey w body = embed (SeeHandshake.decodePreSharedKey body) := by
  rcases body with - | ⟨b0, - | ⟨b1, rest⟩⟩
  · rfl
  · rfl
  have hlt := (u16FromBe b0 b1).toNat_lt
  have hlen : u16At (b0 :: b1 :: rest) 0 1 = .ok (u16FromBe b0 b1) := rfl
  have hadd : add w 2 (u16FromBe b0 b1).toNat = .ok (2 + (u16FromBe b0 b1).toNat) :=
    add_small hw (by omega)
  have hend : add w (2 + (u16FromBe b0 b1).toNat) 2 = .ok (2 + (u16FromBe b0 b1).toNat + 2) :=
    add_small hw (by omega)
  have hnext : add w (2 + (u16FromBe b0 b1).toNat) 1 = .ok (2 + (u16FromBe b0 b1).toNat + 1) :=
    add_small hw (by omega)
  have hlong : ¬ (b0 :: b1 :: rest).length < 2 := by simp
  have hdrop : (rest.drop (u16FromBe b0 b1).toNat).length = rest.length - (u16FromBe b0 b1).toNat :=
    List.length_drop
  unfold decodePreSharedKey SeeHandshake.decodePreSharedKey
  simp only [if_neg hlong, hlen, hadd, hend, hnext, lift_ok, pure_bind]
  by_cases hrest : rest.length < (u16FromBe b0 b1).toNat + 2
  · -- The body is truncated before the length of the binders.
    rw [if_pos (by simp only [List.length_cons]; omega)]
    rcases hbinders : rest.drop (u16FromBe b0 b1).toNat with - | ⟨n0, - | ⟨n1, tail⟩⟩
    · rfl
    · rfl
    · rw [hbinders] at hdrop
      simp only [List.length_cons] at hdrop
      omega
  · rcases hbinders : rest.drop (u16FromBe b0 b1).toNat with - | ⟨n0, - | ⟨n1, tail⟩⟩
    iterate 2
      · rw [hbinders] at hdrop
        simp only [List.length_cons, List.length_nil] at hdrop
        omega
    have hbytes : (b0 :: b1 :: rest).drop (2 + (u16FromBe b0 b1).toNat) = n0 :: n1 :: tail := by
      rw [Nat.add_comm]
      exact hbinders
    have h0 : byteAt (b0 :: b1 :: rest) (2 + (u16FromBe b0 b1).toNat) = .ok n0 :=
      byteAt_of_drop hbytes 0 rfl rfl
    have h1 : byteAt (b0 :: b1 :: rest) (2 + (u16FromBe b0 b1).toNat + 1) = .ok n1 :=
      byteAt_of_drop hbytes 1 rfl rfl
    have hread : u16At (b0 :: b1 :: rest) (2 + (u16FromBe b0 b1).toNat)
        (2 + (u16FromBe b0 b1).toNat + 1) = .ok (u16FromBe n0 n1) := by
      rw [u16At, h0, h1]
      rfl
    have hlist : slice (b0 :: b1 :: rest) 2 (2 + (u16FromBe b0 b1).toNat) =
        .ok (rest.take (u16FromBe b0 b1).toNat) :=
      slice_add (by simp only [List.length_cons]; omega)
    have hpeel : peelLoop cutPskIdentity ((b0 :: b1 :: rest).length + 1)
        (rest.take (u16FromBe b0 b1).toNat) =
          PskIdentity.framing.peel (rest.take (u16FromBe b0 b1).toNat) :=
      Cutter.peelLoop_eq_peel (S := PskIdentity.framing.toCutter) (by
        simp only [List.length_take, List.length_cons]; omega)
    rw [if_neg (by simp only [List.length_cons]; omega), hpeel]
    simp only [hlist, hread, lift_ok, pure_bind]
    cases hstop : (PskIdentity.framing.peel (rest.take (u16FromBe b0 b1).toNat)).stop with
    | none => rw [entries_of_none (pskIdentityTurn_eq hw) hstop]; rfl
    | some e => rw [entries_of_some (pskIdentityTurn_eq hw) hstop]; rfl

/-! ## Extensions -/

theorem map_of_eq {α β : Type} {x : OptionT Panicking α} {o : Option α} (f : α → β) (h : x = embed o) :
    f <$> x = embed (o.map f) := by
  rw [h]
  cases o <;> rfl

theorem decodeBody_eq (hw : 32 ≤ w) (extType : UInt16) (body : Bytes) :
    decodeBody w extType body = embed (SeeHandshake.decodeBody extType body) := by
  unfold decodeBody
  split
  · exact map_of_eq _ (decodeServerName_eq hw body)
  · exact map_of_eq _ (decodeSupportedGroups_eq hw body)
  · exact map_of_eq _ (decodeSignatureAlgorithms_eq hw body)
  · exact map_of_eq _ (decodeSignatureAlgorithms_eq hw body)
  · exact map_of_eq _ (decodeAlpn_eq hw body)
  · exact decodePreSharedKey_eq hw body
  · rfl
  · exact map_of_eq _ (decodeSupportedVersions_eq hw body)
  · exact map_of_eq _ (readOpaqueU16_eq hw body)
  · exact map_of_eq _ (decodePskKeyExchangeModes_eq hw body)
  · exact map_of_eq _ (decodeKeyShare_eq hw body)
  · -- No decoder for this type.
    unfold SeeHandshake.decodeBody
    split
    iterate 11 contradiction
    rfl

theorem decodeExtension_eq (hw : 32 ≤ w) (extType : UInt16) (body : Bytes) :
    decodeExtension w extType body = .ok (SeeHandshake.decodeExtension extType body) := by
  unfold decodeExtension
  rw [decodeBody_eq hw]
  rfl

theorem extensionTurn_eq (hw : 32 ≤ w) (bad : Unit → Id (ForInStep (Bytes × List DecodedExtension)))
    (s : Bytes × List DecodedExtension) :
    extensionTurn w s = embed (turn cutExtension Prod.fst emitEntry bad s) := by
  obtain ⟨cursor, out⟩ := s
  rcases cursor with - | ⟨t1, - | ⟨t2, - | ⟨l1, - | ⟨l2, rest⟩⟩⟩⟩
  · rfl
  · rfl
  · rfl
  · rfl
  have hlt := (u16FromBe l1 l2).toNat_lt
  have htype : u16At (t1 :: t2 :: l1 :: l2 :: rest) 0 1 = .ok (u16FromBe t1 t2) := rfl
  have hlen : u16At (t1 :: t2 :: l1 :: l2 :: rest) 2 3 = .ok (u16FromBe l1 l2) := rfl
  have hadd : add w 4 (u16FromBe l1 l2).toNat = .ok (4 + (u16FromBe l1 l2).toNat) :=
    add_small hw (by omega)
  have hlong : (t1 :: t2 :: l1 :: l2 :: rest).length ≥ 4 := by simp
  unfold extensionTurn turn cutExtension
  simp only [if_pos hlong, htype, hlen, hadd, ok_bind]
  by_cases hrest : rest.length < (u16FromBe l1 l2).toNat
  · have hshort : (t1 :: t2 :: l1 :: l2 :: rest).length < 4 + (u16FromBe l1 l2).toNat := by
      simp only [List.length_cons]
      omega
    rw [if_pos hrest]
    exact if_pos hshort
  · have hbody : slice (t1 :: t2 :: l1 :: l2 :: rest) 4 (4 + (u16FromBe l1 l2).toNat) =
        .ok (rest.take (u16FromBe l1 l2).toNat) :=
      slice_add (by simp only [List.length_cons]; omega)
    have hfrom : sliceFrom (t1 :: t2 :: l1 :: l2 :: rest) (4 + (u16FromBe l1 l2).toNat) =
        .ok ((t1 :: t2 :: l1 :: l2 :: rest).drop (4 + (u16FromBe l1 l2).toNat)) :=
      sliceFrom_eq (by simp only [List.length_cons]; omega)
    have hfits : ¬ (t1 :: t2 :: l1 :: l2 :: rest).length < 4 + (u16FromBe l1 l2).toNat := by
      simp only [List.length_cons]
      omega
    rw [if_neg hrest]
    simp only [hbody, hfrom, decodeExtension_eq hw, ok_bind]
    exact if_neg hfits

/-- The loop over extensions never gives up. -/
theorem cutExtension_ne_bad (xs : Bytes) (e : Unit) : cutExtension xs ≠ .bad e := by
  intro h
  unfold cutExtension at h
  split at h
  · simp only at h
    split_ifs at h
  · cases h

theorem walkExtensionBodies_eq (hw : 32 ≤ w) (extBytes : Bytes) :
    walkExtensionBodies w extBytes = .ok (SeeHandshake.walkExtensionBodies extBytes) := by
  have hpeel : peelLoop cutExtension (extBytes.length + 1) extBytes =
      DecodedExtension.framing.peel extBytes :=
    Cutter.peelLoop_eq_peel (S := DecodedExtension.framing.toCutter) (Nat.lt_succ_self _)
  have hfuel : (Prod.fst (extBytes, ([] : List DecodedExtension))).length < extBytes.length + 1 :=
    Nat.lt_succ_self _
  have hloop : loop (extensionTurn w) (extBytes.length + 1) (extBytes, []) =
      embed (outcome emitEntry (fun _ => pure (extBytes, [])) (extBytes, [])
        (DecodedExtension.framing.peel extBytes) : Id _) :=
    loop_eq (S := DecodedExtension.framing.toCutter) (I := fun _ => True)
      (fun s _ => extensionTurn_eq hw (fun _ => pure (.done ([], []))) s)
      (fun xs e h => absurd h (cutExtension_ne_bad xs e)) (fun _ _ _ _ _ => ⟨trivial, rfl⟩) trivial
      hfuel
  have hstop : (DecodedExtension.framing.peel extBytes).stop = none := by
    have hcut := DecodedExtension.framing.cut_rest extBytes
    cases hstop : (DecodedExtension.framing.peel extBytes).stop with
    | none => rfl
    | some e =>
      rw [hstop] at hcut
      exact absurd hcut (cutExtension_ne_bad _ e)
  unfold walkExtensionBodies SeeHandshake.walkExtensionBodies
  rw [hloop, hpeel]
  unfold outcome
  rw [hstop]
  simp only
  rw [foldl_emitEntry, List.nil_append]
  rfl

end SeeHandshake.Checked
