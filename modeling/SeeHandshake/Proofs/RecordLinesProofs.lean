import SeeHandshake.Proofs.SectionLinesProofs
import SeeHandshake.Proofs.SectionProofs
import SeeHandshake.Ui.Panels

/-!
# The lines of a record

The sections of a record that was framed are rendered without a panic, and their lines are few enough for
every computation with rows of 32 bits.
-/

namespace SeeHandshake

open Lib Panicking

/-! ## Sections that fit -/

/-- The lines of a section: they can be made, and take up to `n` characters. -/
structure Section.Fits (n : ℕ) (s : Section) : Prop where
  lines : ∃ ls, s.value.lines = .ok ls ∧ linesSize ls ≤ n
  title : s.title.toList.length ≤ 64
  hint : s.directionHint.toList.length ≤ 32

/-- Sections that fit, with the sum of what they take. -/
inductive SectionsFit : ℕ → List Section → Prop
  | nil : SectionsFit 0 []
  | cons {n m : ℕ} {s : Section} {ss : List Section} : s.Fits n → SectionsFit m ss → SectionsFit (n + m) (s :: ss)

theorem Section.Fits.mono {n m : ℕ} {s : Section} (h : s.Fits n) (hle : n ≤ m) : s.Fits m := by
  obtain ⟨ls, hls, hsize⟩ := h.lines
  exact ⟨⟨ls, hls, hsize.trans hle⟩, h.title, h.hint⟩

theorem SectionsFit.append {n m : ℕ} {ss ss' : List Section} (h : SectionsFit n ss) (h' : SectionsFit m ss') :
    SectionsFit (n + m) (ss ++ ss') := by
  induction h with
  | nil => rwa [Nat.zero_add, List.nil_append]
  | cons hs _ ih =>
    rw [Nat.add_assoc, List.cons_append]
    exact .cons hs ih

theorem SectionsFit.map {α : Type} {f : α → Section} {w : α → ℕ} {xs : List α} (h : ∀ x ∈ xs, (f x).Fits (w x)) :
    SectionsFit (total w xs) (xs.map f) := by
  induction xs with
  | nil => exact .nil
  | cons x xs ih =>
    exact .cons (h x List.mem_cons_self) (ih fun y hy => h y (List.mem_cons_of_mem x hy))

theorem SectionsFit.singleton {n : ℕ} {s : Section} (h : s.Fits n) : SectionsFit n [s] := .cons h .nil

/-! ## Rendering -/

section Render

variable (copy : EducationalCopy)

/-- The lines of a section behind an indent. -/
theorem linesSize_indented_le (ls : List (Line Style)) :
    linesSize (ls.map fun vl => Line.ofSpans (rawSpan "    " :: vl.spans)) ≤ 5 * linesSize ls := by
  have hspaces : (rawSpan "    ").content.length = 4 := rfl
  have hlines := @linesSize_map_le _ (fun vl : Line Style => (Line.ofSpans (rawSpan "    " :: vl.spans) : Line Style))
    (fun vl => 5 * (vl.chars.length + 1)) ls (fun vl _ => by
      have hspans : (Line.ofSpans vl.spans : Line Style).chars = vl.chars := rfl
      rw [length_chars_cons, hspaces, hspans]
      omega)
  rwa [total_mul] at hlines

theorem renderSection_ok {n : ℕ} {s : Section} (h : s.Fits n) (isSelected showEducation : Bool) :
    ∃ ls, renderSection copy s isSelected showEducation = .ok ls ∧ linesSize ls ≤ 5 * n + 4300 := by
  obtain ⟨value, hvalue, hsize⟩ := h.lines
  have htitle := h.title
  have hhint := h.hint
  have hindented := linesSize_indented_le value
  have hcopy := copy.size_le s
  unfold renderSection
  rw [hvalue, ok_bind]
  refine ⟨_, rfl, ?_⟩
  have heducation : linesSize (if showEducation then eduLines (copy.eduShort s) (copy.eduDetails s) else []) ≤
      4096 := by
    split
    · exact hcopy
    · exact Nat.zero_le _
  have hcursor : (if isSelected then "▶ " else "  " : String).toList.length = 2 := by
    cases isSelected <;> rfl
  have hgap : (rawSpan "  ").content.length = 2 := rfl
  have hdot : "· ".toList.length = 2 := rfl
  simp only [linesSize_cons, linesSize_append, length_chars_cons, length_chars_nil, styled, hcursor, hgap,
    List.length_append, hdot]
  omega

theorem renderSectionsFrom_ok {n : ℕ} {ss : List Section} (h : SectionsFit n ss) (selected : ℕ)
    (showEducation : Bool) (i : ℕ) :
    ∃ sections, renderSectionsFrom copy selected showEducation i ss = .ok sections ∧
      sections.length = ss.length ∧ total linesSize sections ≤ 5 * n + 4300 * ss.length := by
  induction h generalizing i with
  | nil => exact ⟨[], rfl, rfl, Nat.le_refl 0⟩
  | cons hs _ ih =>
    obtain ⟨ls, hls, hsize⟩ := renderSection_ok copy hs (selected = i) showEducation
    obtain ⟨rest, hrest, hlength, htotal⟩ := ih (i + 1)
    refine ⟨ls :: rest, ?_, ?_, ?_⟩
    · rw [renderSectionsFrom, hls, ok_bind, hrest]
      rfl
    · rw [List.length_cons, List.length_cons, hlength]
    · rw [total_cons, List.length_cons]
      omega

end Render

/-! ## The sections of a hello -/

theorem length_extensionName_le (extType : UInt16) : (extensionName extType).toList.length ≤ 38 := by
  unfold extensionName
  split <;> decide

theorem length_handshakeTypeName_le (msgType : UInt8) : (handshakeTypeName msgType).toList.length ≤ 19 := by
  unfold handshakeTypeName
  split <;> decide

theorem length_directionHint_le (d : RecordDirection) : (directionHint d).toList.length ≤ 32 := by
  cases d <;> decide

theorem length_toString_le {n : ℕ} (h : n < 100000) : (toString n).toList.length ≤ 5 := by
  show (String.ofList (Nat.toDigits 10 n)).toList.length ≤ 5
  rw [String.toList_ofList]
  exact length_decimal_le h

/-- The section of an extension. -/
theorem fits_sectionForExtension {dir : String} (hdir : dir.toList.length ≤ 32) {ext : DecodedExtension}
    (h : ext.Fits) :
    (sectionForExtension ext dir).Fits (512 * (4 + ext.raw.length)) := by
  obtain ⟨hdecode, hraw⟩ := h
  have hwithin : ext.body.Within ext.raw.length := by
    rw [hdecode]
    show ((decodeBody ext.extType ext.raw).getD .opaqueBody).Within ext.raw.length
    cases hbody : decodeBody ext.extType ext.raw with
    | none => trivial
    | some body => exact decodeBody_within hbody
  obtain ⟨ls, hls, hsize⟩ := extensionLines_ok hraw (Nat.le_refl _) hwithin
  have hname : ext.name.toList.length ≤ 38 := by
    rw [hdecode]
    exact length_extensionName_le _
  refine ⟨⟨ls, hls, hsize.trans (by omega)⟩, ?_, hdir⟩
  have h1 : " (0x".toList.length = 4 := rfl
  have h2 : ")".toList.length = 1 := rfl
  show (ext.name ++ " (0x" ++ hexWord ext.extType ++ ")").toList.length ≤ 64
  simp only [String.toList_append, List.length_append, length_hexWord, h1, h2]
  omega

/-- Key shares have a section of their own, with the same lines as an extension. -/
theorem fits_extensionSection {dir : String} (hdir : dir.toList.length ≤ 32) {ext : DecodedExtension}
    (h : ext.Fits) (isClient : Bool) :
    (extensionSection dir isClient ext).Fits (512 * (4 + ext.raw.length)) := by
  have hext := fits_sectionForExtension hdir h
  unfold extensionSection
  split
  · split
    · rename_i entries hbody
      have hraw := h.2
      have hwithin : (ExtensionBody.keyShare entries).Within ext.raw.length := by
        have hdecode := congrArg DecodedExtension.body h.1
        rw [hbody] at hdecode
        cases hdecoded : decodeBody ext.extType ext.raw with
        | none =>
          simp only [decodeExtension, hdecoded] at hdecode
          cases hdecode
        | some body =>
          simp only [decodeExtension, hdecoded, Option.getD_some] at hdecode
          rw [hdecode]
          exact decodeBody_within hdecoded
      have htotal : total (fun e => 4 + e.keyExchange.length) entries ≤ ext.raw.length := hwithin
      have hcount : entries.length ≤ total (fun e => 4 + e.keyExchange.length) entries :=
        length_le_total fun e _ => by omega
      have hentries : ∀ e ∈ entries, e.keyExchange.length < 65536 := by
        intro e he
        have hle := le_total (w := fun e : KeyShareEntry => 4 + e.keyExchange.length) he
        omega
      obtain ⟨ls, hls, hsize⟩ := @keyShareLinesFrom_ok isClient entries 0 hentries (by omega)
      refine ⟨⟨ls, hls, by omega⟩, ?_, hdir⟩
      have hnumber := length_toString_le (by omega : entries.length < 100000)
      cases isClient with
      | false =>
        have hchosen : "key_share — chosen by server".toList.length ≤ 64 := by decide
        exact hchosen
      | true =>
        have hplural : (if entries.length = 1 then "" else "s" : String).toList.length ≤ 1 := by
          split <;> decide
        have h1 : "key_share — offered by client (".toList.length = 31 := rfl
        have h2 : " offer".toList.length = 6 := rfl
        have h3 : ")".toList.length = 1 := rfl
        simp only [if_true, String.toList_append, List.length_append, h1, h2, h3]
        omega
    · exact hext
  · exact hext

/-- The extensions of a hello, as far as they are read: each with its header. -/
structure ExtensionsWithin (n : ℕ) (exts : List DecodedExtension) : Prop where
  fits : ∀ ext ∈ exts, ext.Fits
  total_le : total (fun ext => 4 + ext.raw.length) exts ≤ n

theorem ExtensionsWithin.of_read {tail : Bytes} {exts : List DecodedExtension}
    (h : readExtensions tail = .ok exts) : ExtensionsWithin tail.length exts := by
  rcases readExtensions_eq_ok_iff.mp h with ⟨-, rfl⟩ | ⟨block, rest, -, rfl, rfl⟩
  · exact ⟨fun _ hmem => absurd hmem List.not_mem_nil, Nat.zero_le _⟩
  · refine ⟨(writeAll_walkExtensionBodies block).1, ?_⟩
    have hcut : ∀ xs (ext : DecodedExtension) n, cutExtension xs = .frame ext n →
        4 + ext.raw.length ≤ n ∧ n ≤ xs.length := by
      intro xs ext n hcut
      obtain ⟨t1, t2, l1, l2, tail, rfl, -, -, rfl⟩ := DecodedExtension.cut_eq_frame hcut
      simp only [List.length_cons, List.length_append]
      omega
    have hframes := total_frames_le hcut (block.length + 1) block
    rw [List.length_append, vec16_length]
    exact hframes.trans (by omega)

/-- Each pin finds one element at most. -/
theorem total_pinned_le {α κ : Type*} [DecidableEq κ] (key : α → κ) (w : α → ℕ) (pins : List κ) (xs : List α) :
    total w (pinned key pins xs) ≤ pins.length * total w xs := by
  induction pins with
  | nil => exact Nat.zero_le _
  | cons k pins ih =>
    have hfound : total w (xs.find? fun x => key x = k).toList ≤ total w xs := by
      cases hfind : xs.find? fun x => key x = k with
      | none => exact Nat.zero_le _
      | some x => exact le_total (List.mem_of_find?_eq_some hfind)
    rw [pinned_cons, total_append, List.length_cons, Nat.succ_mul]
    omega

/-- The sections of some of the extensions, which weigh as much as all of them `k` times. -/
theorem ExtensionsWithin.sections {dir : String} (hdir : dir.toList.length ≤ 32) (isClient : Bool) {n k : ℕ}
    {exts shown : List DecodedExtension} (h : ExtensionsWithin n exts) (hsub : ∀ ext ∈ shown, ext ∈ exts)
    (hshown : total (fun ext => 4 + ext.raw.length) shown ≤ k * total (fun ext => 4 + ext.raw.length) exts) :
    ∃ m, SectionsFit m (shown.map (extensionSection dir isClient)) ∧ m ≤ 512 * (k * n) ∧
      (shown.map (extensionSection dir isClient)).length ≤ k * n := by
  have hfit := SectionsFit.map fun ext hext => fits_extensionSection hdir (h.fits ext (hsub ext hext)) isClient
  have hle : k * total (fun ext => 4 + ext.raw.length) exts ≤ k * n := Nat.mul_le_mul_left k h.total_le
  have hcount : shown.length ≤ total (fun ext => 4 + ext.raw.length) shown :=
    length_le_total fun ext _ => by omega
  refine ⟨_, hfit, ?_, ?_⟩
  · rw [total_mul]
    omega
  · rw [List.length_map]
    omega

theorem mem_of_mem_pinned {α κ : Type*} [DecidableEq κ] {key : α → κ} {pins : List κ} {xs : List α} {x : α}
    (h : x ∈ pinned key pins xs) : x ∈ xs := by
  obtain ⟨k, -, hfind⟩ := List.mem_filterMap.mp h
  exact List.mem_of_find?_eq_some hfind

theorem ExtensionsWithin.pinned {dir : String} (hdir : dir.toList.length ≤ 32) (isClient : Bool) {n : ℕ}
    {exts : List DecodedExtension} (h : ExtensionsWithin n exts) (pins : List UInt16) :
    ∃ m, SectionsFit m ((Lib.pinned (·.extType) pins exts).map (extensionSection dir isClient)) ∧
      m ≤ 512 * (pins.length * n) ∧
      ((Lib.pinned (·.extType) pins exts).map (extensionSection dir isClient)).length ≤ pins.length * n :=
  h.sections hdir isClient (fun _ hext => mem_of_mem_pinned hext) (total_pinned_le _ _ pins exts)

theorem ExtensionsWithin.remaining {dir : String} (hdir : dir.toList.length ≤ 32) (isClient : Bool) {n : ℕ}
    {exts : List DecodedExtension} (h : ExtensionsWithin n exts) (p : DecodedExtension → Bool) :
    ∃ m, SectionsFit m ((exts.filter p).map (extensionSection dir isClient)) ∧ m ≤ 512 * n ∧
      ((exts.filter p).map (extensionSection dir isClient)).length ≤ n := by
  have hfilter : total (fun ext => 4 + ext.raw.length) (exts.filter p) ≤
      1 * total (fun ext => 4 + ext.raw.length) exts := by
    rw [Nat.one_mul]
    exact total_filter_le p exts
  have hsections := h.sections hdir isClient (fun _ hext => (List.mem_filter.mp hext).1) hfilter
  rwa [Nat.one_mul] at hsections

theorem length_suiteLine_le (suite : UInt16 × Option CipherSuite) : (suiteLine suite).chars.length + 1 ≤ 60 := by
  have hname : ((suite.2.map CipherSuite.display).getD "unknown").toList.length ≤ 45 := by
    cases suite.2 with
    | none => decide
    | some s => exact s.length_display_le
  have h1 : "0x".toList.length = 2 := rfl
  have h2 : "  ".toList.length = 2 := rfl
  unfold suiteLine
  simp only
  rw [length_wireLine]
  simp only [List.length_append, length_hexWord, h1, h2]
  omega

theorem length_sessionIdDisplay_le {bytes : Bytes} (h : bytes.length < 256) :
    (sessionIdDisplay bytes).length ≤ 800 := by
  have hcount := length_decimal_le (by omega : bytes.length < 100000)
  have hhex := length_hexInline_le bytes
  have hlabel : " bytes: ".toList.length = 8 := rfl
  unfold sessionIdDisplay
  split
  · decide
  · simp only [List.length_append, hlabel]
    omega

theorem length_hexCode (v : UInt16) : ("0x".toList ++ (hexWord v).toList).length = 6 := by
  have hmark : "0x".toList.length = 2 := rfl
  rw [List.length_append, length_hexWord, hmark]

theorem fits_random {dir title : String} (hdir : dir.toList.length ≤ 32) (htitle : title.toList.length ≤ 64)
    (random : Random) : (⟨title, dir, .random random⟩ : Section).Fits 100 := by
  have hhex := length_hexInline_le random.1
  have hlength := random.2
  refine ⟨⟨_, rfl, ?_⟩, htitle, hdir⟩
  rw [linesSize_wireLine]
  omega

/-- The record header, behind the other sections. -/
theorem fits_framingSection (r : RecordEvent) {dir : String} (hdir : dir.toList.length ≤ 32) :
    (framingSection r dir).Fits 200 := by
  have houter : (outerName r.outerType).toList.length ≤ 27 := by
    cases r.outerType with
    | other v =>
      have hother : "Other".toList.length ≤ 27 := by decide
      exact hother
    | _ => decide
  have hsize := length_decimal_le (by have := r.outerLength.toNat_lt; omega : r.outerLength.toNat < 100000)
  have hsequence : (decimal r.sequence.toNat).length ≤ 10 :=
    (Nat.length_toDigits_le_iff (by omega) (by omega)).mpr (by have := r.sequence.toNat_lt; omega)
  have hhex := length_hexInline_le (r.raw.take (min r.raw.length 5))
  have hheader : (r.raw.take (min r.raw.length 5)).length ≤ 5 := by
    rw [List.length_take]
    omega
  have h1 : "outer type".toList.length = 10 := rfl
  have h2 : "length".toList.length = 6 := rfl
  have h3 : "sequence".toList.length = 8 := rfl
  have h4 : "record header".toList.length = 13 := rfl
  have h5 : " bytes".toList.length = 6 := rfl
  have htitle : "Record framing".toList.length ≤ 64 := by decide
  refine ⟨⟨_, rfl, ?_⟩, htitle, hdir⟩
  simp only [linesSize_cons, linesSize_nil, length_kvLine, length_kvWireLine, List.length_append,
    List.length_cons, h1, h2, h3, h4, h5]
  omega

theorem fits_clientLegacy {ch : DecodedClientHello} {dir : String} (hdir : dir.toList.length ≤ 32)
    (hsession : ch.sessionId.length < 256) (hcompression : ch.compressionMethods.length < 256) :
    (clientLegacySection ch dir).Fits 2000 := by
  have hid := length_sessionIdDisplay_le hsession
  have hhex := length_hexInline_le ch.compressionMethods
  have h1 : "legacy_version".toList.length = 14 := rfl
  have h2 : "session_id".toList.length = 10 := rfl
  have h3 : "compression".toList.length = 11 := rfl
  have htitle : "Legacy fields (TLS 1.2 compatibility)".toList.length ≤ 64 := by decide
  refine ⟨⟨_, rfl, ?_⟩, htitle, hdir⟩
  simp only [linesSize_cons, linesSize_nil, length_kvWireLine, length_hexCode, h1, h2, h3]
  omega

theorem fits_serverLegacy {sh : DecodedServerHello} {dir : String} (hdir : dir.toList.length ≤ 32)
    (hsession : sh.sessionIdEcho.length < 256) : (serverLegacySection sh dir).Fits 2000 := by
  have hid := length_sessionIdDisplay_le hsession
  have h1 : "legacy_version".toList.length = 14 := rfl
  have h2 : "session_id_echo".toList.length = 15 := rfl
  have h3 : "compression".toList.length = 11 := rfl
  have htitle : "Legacy fields (TLS 1.2 compatibility)".toList.length ≤ 64 := by decide
  refine ⟨⟨_, rfl, ?_⟩, htitle, hdir⟩
  simp only [linesSize_cons, linesSize_nil, length_kvWireLine, length_hexCode, length_hexByte, h1, h2, h3]
  omega

/-! ## The sections of a record -/

/-- The sections of a record of `p` bytes: what they take together, and how many they are. -/
def RecordFits (p : ℕ) (ss : List Section) : Prop :=
  ∃ n, SectionsFit n ss ∧ n ≤ 6000 * p + 4000 ∧ ss.length ≤ 10 * p + 6

theorem recordFits_clientHello {payload : Bytes} {ch : DecodedClientHello}
    (h : decodeClientHello payload = .ok ch) {r : RecordEvent} (hbody : r.body = .handshake (.clientHello ch)) :
    RecordFits payload.length (sectionsFor r) := by
  have hdir := length_directionHint_le r.direction
  obtain ⟨suites, tail, hsession, hlist, hcompression, hsuites, hexts, hstrip⟩ := exists_of_decodeClientHello h
  obtain ⟨-, trailing, hpayload⟩ := stripHandshakeHeader_eq_ok_iff.mp hstrip
  -- The suites and the extensions are parts of the message.
  have hparts : 2 * suites.length + tail.length ≤ payload.length := by
    rw [hpayload]
    simp only [handshakeMessage, clientHelloBody, List.length_append, List.length_cons, vec16_length, u16List_length]
    omega
  have hwithin := ExtensionsWithin.of_read hexts
  obtain ⟨n₁, hfit₁, hle₁, hlen₁⟩ := hwithin.pinned hdir true [51, 43, 13, 10, 45, 41, 42]
  obtain ⟨n₂, hfit₂, hle₂, hlen₂⟩ := hwithin.pinned hdir true [0, 16]
  obtain ⟨n₃, hfit₃, hle₃, hlen₃⟩ := hwithin.remaining hdir true fun e => e.extType ∉ PROMOTED_EXTENSIONS
  have hcount : ch.cipherSuites.length = suites.length := by rw [hsuites, List.length_map]
  have hoffered : (cipherSuitesOfferedSection ch (directionHint r.direction)).Fits (60 * suites.length) := by
    refine ⟨⟨_, rfl, ?_⟩, ?_, hdir⟩
    · have hlines := linesSize_map_le (w := fun _ => 60) fun s (_ : s ∈ ch.cipherSuites) => length_suiteLine_le s
      rw [total_const, hcount] at hlines
      exact hlines
    · rw [u16List_length] at hlist
      have hnumber := length_toString_le (by omega : suites.length < 100000)
      have h1 : "Cipher suites offered (".toList.length = 23 := rfl
      have h2 : ")".toList.length = 1 := rfl
      show ("Cipher suites offered (" ++ toString ch.cipherSuites.length ++ ")").toList.length ≤ 64
      rw [hcount]
      simp only [String.toList_append, List.length_append, h1, h2]
      omega
  have hrandom : (⟨"Client random (32 bytes)", directionHint r.direction, .random ch.random⟩ : Section).Fits 100 :=
    fits_random hdir (by decide) ch.random
  have hlegacy := fits_clientLegacy hdir hsession hcompression
  have hframing := fits_framingSection r hdir
  rw [sectionsFor_clientHello hbody, pushClientHello_eq]
  have hall := ((SectionsFit.singleton hoffered).append (hfit₁.append
    ((SectionsFit.singleton hrandom).append ((hfit₂.append hfit₃).append (.singleton hlegacy))))).append
      (.singleton hframing)
  simp only [List.map_append, List.append_assoc, List.cons_append, List.nil_append] at hall ⊢
  refine ⟨_, hall, ?_, ?_⟩
  · simp only [List.length_cons, List.length_nil] at hle₁ hle₂
    omega
  · simp only [List.length_append, List.length_cons, List.length_nil] at hlen₁ hlen₂ hlen₃ ⊢
    omega

theorem recordFits_serverHello {payload : Bytes} {sh : DecodedServerHello}
    (h : decodeServerHello payload = .ok sh) {dir : String} (hdir : dir.toList.length ≤ 32)
    {framing : Section} (hframing : framing.Fits 200) :
    RecordFits payload.length (pushServerHello [] sh dir ++ [framing]) := by
  obtain ⟨suite, tail, hsession, -, hexts, hstrip⟩ := exists_of_decodeServerHello h
  obtain ⟨-, trailing, hpayload⟩ := stripHandshakeHeader_eq_ok_iff.mp hstrip
  have hparts : tail.length ≤ payload.length := by
    rw [hpayload]
    simp only [handshakeMessage, serverHelloBody, List.length_append, List.length_cons]
    omega
  have hwithin := ExtensionsWithin.of_read hexts
  obtain ⟨n₁, hfit₁, hle₁, hlen₁⟩ := hwithin.pinned hdir false [51, 43]
  obtain ⟨n₂, hfit₂, hle₂, hlen₂⟩ := hwithin.pinned hdir false [41]
  obtain ⟨n₃, hfit₃, hle₃, hlen₃⟩ := hwithin.remaining hdir false fun e => e.extType ∉ PROMOTED_EXTENSIONS
  have hchosen : (⟨"Cipher suite (chosen)", dir, .cipherSuiteChosen sh.cipherSuite⟩ : Section).Fits 60 := by
    have hline := length_suiteLine_le sh.cipherSuite
    have htitle : "Cipher suite (chosen)".toList.length ≤ 64 := by decide
    refine ⟨⟨_, rfl, ?_⟩, htitle, hdir⟩
    rw [linesSize_cons, linesSize_nil]
    omega
  have hrandom : (⟨"Server random (32 bytes)", dir, .random sh.random⟩ : Section).Fits 100 :=
    fits_random hdir (by decide) sh.random
  have hlegacy := @fits_serverLegacy sh dir hdir hsession
  rw [pushServerHello_eq]
  have hall := ((SectionsFit.singleton hchosen).append (hfit₁.append
    ((SectionsFit.singleton hrandom).append ((hfit₂.append hfit₃).append (.singleton hlegacy))))).append
      (.singleton hframing)
  simp only [List.map_append, List.append_assoc, List.cons_append, List.nil_append] at hall ⊢
  refine ⟨_, hall, ?_, ?_⟩
  · simp only [List.length_cons, List.length_nil] at hle₁ hle₂
    omega
  · simp only [List.length_append, List.length_cons, List.length_nil] at hlen₁ hlen₂ hlen₃ ⊢
    omega

/-- A message that is not decoded further. -/
theorem fits_message {dir : String} (hdir : dir.toList.length ≤ 32) (msgType : UInt8) {raw : Bytes}
    (h : raw.length ≤ 65536) :
    (⟨handshakeTypeName msgType ++ " (msg_type " ++ hexByte msgType ++ ")", dir, .message msgType raw⟩ :
      Section).Fits (75 * raw.length + 60) := by
  have hname := length_handshakeTypeName_le msgType
  have hdump := linesSize_hexLines_le h
  have h1 : "msg_type".toList.length = 8 := rfl
  have h2 : "  ".toList.length = 2 := rfl
  have h3 : " (msg_type ".toList.length = 11 := rfl
  have h4 : ")".toList.length = 1 := rfl
  refine ⟨⟨_, rfl, ?_⟩, ?_, hdir⟩
  · rw [linesSize_cons, length_kvWireLine]
    simp only [List.length_append, length_hexByte, h1, h2]
    omega
  · simp only [String.toList_append, List.length_append, length_hexByte, h3, h4]
    omega

/-- The two sections of an encrypted record. -/
theorem fits_encrypted {dir : String} (hdir : dir.toList.length ≤ 32) {inferredLabel : String}
    (hlabel : inferredLabel.toList.length ≤ 100) {preview : Bytes} (hpreview : preview.length ≤ 64) :
    (⟨"Encrypted flight (inferred)", dir, .guess inferredLabel⟩ : Section).Fits 120 ∧
      (⟨"Ciphertext preview", dir, .ciphertext preview⟩ : Section).Fits 5000 := by
  have hdump := linesSize_hexLines_le (by omega : preview.length ≤ 65536)
  have hguess : "guess".toList.length = 5 := rfl
  have h1 : "Encrypted flight (inferred)".toList.length ≤ 64 := by decide
  have h2 : "Ciphertext preview".toList.length ≤ 64 := by decide
  refine ⟨⟨⟨_, rfl, ?_⟩, h1, hdir⟩, ⟨⟨_, rfl, ?_⟩, h2, hdir⟩⟩
  · rw [linesSize_cons, linesSize_nil, length_kvLine, hguess]
    omega
  · omega

/-- The event of a record that was framed: its body is what the tracker makes of the record. -/
def RecordEvent.Decoded (e : RecordEvent) : Prop :=
  ∃ (r : TlsRecord) (d : Direction) (conn : TrackedConnection),
    r.payload.length ≤ MAX_RECORD_PAYLOAD ∧ e.body = buildBody r d conn

theorem length_encryptedFlightLabel_le (d : Direction) (conn : TrackedConnection) (len : ℕ) :
    (encryptedFlightLabel d conn len).toList.length ≤ 100 := by
  unfold encryptedFlightLabel
  split
  · decide
  · cases d with
    | clientToServer =>
      simp only
      split_ifs <;> decide
    | serverToClient =>
      simp only
      split_ifs <;> decide

theorem length_postCcsHandshakeLabel_le (d : Direction) (conn : TrackedConnection) :
    (postCcsHandshakeLabel d conn).toList.length ≤ 100 := by
  unfold postCcsHandshakeLabel
  cases d with
  | clientToServer =>
    simp only
    split_ifs <;> decide
  | serverToClient =>
    simp only
    split_ifs <;> decide

theorem recordFits_unknown {e : RecordEvent} {msgType : UInt8} {raw : Bytes}
    (hbody : e.body = .handshake (.unknown msgType raw)) (h : raw.length ≤ 65536) :
    RecordFits raw.length (sectionsFor e) := by
  have hdir := length_directionHint_le e.direction
  have hfit := SectionsFit.cons (fits_message hdir msgType h) (.singleton (fits_framingSection e hdir))
  unfold sectionsFor
  rw [hbody]
  refine ⟨_, hfit, by omega, ?_⟩
  simp only [List.length_append, List.length_cons, List.length_nil]
  omega

theorem recordFits_encrypted {e : RecordEvent} {inferredLabel : String} {preview : Bytes}
    (hbody : e.body = .encryptedHandshake inferredLabel preview) (hlabel : inferredLabel.toList.length ≤ 100)
    (hpreview : preview.length ≤ 64) : RecordFits 64 (sectionsFor e) := by
  have hdir := length_directionHint_le e.direction
  obtain ⟨hguess, hcipher⟩ := fits_encrypted hdir hlabel hpreview
  have hfit := SectionsFit.cons hguess (.cons hcipher (.singleton (fits_framingSection e hdir)))
  unfold sectionsFor
  rw [hbody]
  refine ⟨_, hfit, by omega, ?_⟩
  simp only [List.length_append, List.length_cons, List.length_nil]
  omega

theorem recordFits_changeCipherSpec {e : RecordEvent} (hbody : e.body = .changeCipherSpec) :
    RecordFits 0 (sectionsFor e) := by
  have hdir := length_directionHint_le e.direction
  have hsection : (⟨"ChangeCipherSpec", directionHint e.direction, .changeCipherSpec⟩ : Section).Fits 60 := by
    have htitle : "ChangeCipherSpec".toList.length ≤ 64 := by decide
    refine ⟨⟨_, rfl, ?_⟩, htitle, hdir⟩
    rw [linesSize_wireLine]
    decide
  have hfit := SectionsFit.cons hsection (.singleton (fits_framingSection e hdir))
  unfold sectionsFor
  rw [hbody]
  refine ⟨_, hfit, by omega, ?_⟩
  simp only [List.length_append, List.length_cons, List.length_nil]
  omega

/-- The sections of a message. -/
theorem recordFits_handshake {e : RecordEvent} {payload : Bytes} (h : payload.length ≤ 65536)
    (hbody : e.body = .handshake (decodeHandshakeBody payload)) :
    RecordFits payload.length (sectionsFor e) := by
  have hframing := fits_framingSection e (length_directionHint_le e.direction)
  unfold decodeHandshakeBody at hbody
  cases hhead : payload.head? with
  | none =>
    rw [hhead] at hbody
    obtain rfl := List.head?_eq_none_iff.mp hhead
    exact recordFits_unknown hbody (Nat.zero_le _)
  | some msgType =>
    rw [hhead] at hbody
    simp only at hbody
    split_ifs at hbody
    · cases hdecode : decodeClientHello payload with
      | ok ch =>
        rw [hdecode] at hbody
        exact recordFits_clientHello hdecode hbody
      | error err =>
        rw [hdecode] at hbody
        exact recordFits_unknown hbody h
    · cases hdecode : decodeServerHello payload with
      | ok sh =>
        have hfit := recordFits_serverHello hdecode (length_directionHint_le e.direction) hframing
        rw [hdecode] at hbody
        simp only at hbody
        split_ifs at hbody
        · unfold sectionsFor
          rw [hbody]
          exact hfit
        · unfold sectionsFor
          rw [hbody]
          exact hfit
      | error err =>
        rw [hdecode] at hbody
        exact recordFits_unknown hbody h
    · exact recordFits_unknown hbody h

/-- The sections of a record that was framed. -/
theorem RecordEvent.Decoded.fits {e : RecordEvent} (h : e.Decoded) :
    ∃ p, p ≤ MAX_RECORD_PAYLOAD ∧ RecordFits p (sectionsFor e) := by
  obtain ⟨r, d, conn, hpayload, hbody⟩ := h
  have hmax : MAX_RECORD_PAYLOAD = 16384 := rfl
  have hpreview : (r.payload.take CIPHERTEXT_PREVIEW_LEN).length ≤ 64 := List.length_take_le _ _
  unfold buildBody at hbody
  cases hr : r.recordType with
  | handshake =>
    rw [hr] at hbody
    simp only at hbody
    split_ifs at hbody
    · exact ⟨64, by omega, recordFits_encrypted hbody (length_postCcsHandshakeLabel_le d conn) hpreview⟩
    · exact ⟨_, hpayload, recordFits_handshake (by omega) hbody⟩
  | applicationData =>
    rw [hr] at hbody
    exact ⟨64, by omega, recordFits_encrypted hbody (length_encryptedFlightLabel_le d conn _) hpreview⟩
  | changeCipherSpec =>
    rw [hr] at hbody
    exact ⟨0, by omega, recordFits_changeCipherSpec hbody⟩
  | alert =>
    rw [hr] at hbody
    exact ⟨64, by omega, recordFits_encrypted hbody (by decide) (by decide)⟩
  | other v =>
    rw [hr] at hbody
    exact ⟨64, by omega, recordFits_encrypted hbody (by decide) (by decide)⟩

end SeeHandshake
