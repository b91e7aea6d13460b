import SeeHandshake.Ui.SectionOrder

/-!
# Proofs: the sections of both hellos

The pushes of a hello are read as one list: the pinned extensions, and the ones that are left over. A
ClientHello pins all the types that are left out behind the pins, a ServerHello three of them only.
-/

namespace SeeHandshake

open Lib

/-! ## Pushes -/

section Pushes

variable {exts : List DecodedExtension} {dir : String} {isClient : Bool}

theorem extensionSection_of_ne {ext : DecodedExtension} (h : ext.extType ≠ 51) :
    extensionSection dir isClient ext = sectionForExtension ext dir := if_neg h

theorem pushExtensionIfPresent_eq {extType : UInt16} (h : extType ≠ 51) (out : List Section) :
    pushExtensionIfPresent out exts dir extType =
      out ++ (pinned (·.extType) [extType] exts).map (extensionSection dir isClient) := by
  unfold pushExtensionIfPresent
  rw [pinned_cons, pinned_nil, List.append_nil]
  cases hfind : exts.find? fun e => e.extType = extType with
  | none => exact (List.append_nil out).symm
  | some ext =>
    have htype := List.find?_some hfind
    rw [decide_eq_true_iff] at htype
    rw [Option.toList_some, List.map_singleton, extensionSection_of_ne (htype ▸ h)]

theorem pushKeyShareIfPresent_eq (out : List Section) :
    pushKeyShareIfPresent out exts dir isClient =
      out ++ (pinned (·.extType) [51] exts).map (extensionSection dir isClient) := by
  unfold pushKeyShareIfPresent
  rw [pinned_cons, pinned_nil, List.append_nil]
  cases hfind : exts.find? fun e => e.extType = 51 with
  | none => exact (List.append_nil out).symm
  | some ext =>
    have htype := List.find?_some hfind
    rw [decide_eq_true_iff] at htype
    rw [Option.toList_some, List.map_singleton]
    unfold extensionSection
    simp only
    rw [if_pos htype]
    cases ext.body <;> rfl

theorem not_promoted_ne {ext : DecodedExtension} (h : ext.extType ∉ PROMOTED_EXTENSIONS) :
    ext.extType ≠ 51 := by
  intro htype
  rw [htype] at h
  exact h (by decide)

theorem pushRemaining_eq (out : List Section) :
    pushRemaining out exts dir =
      out ++ (exts.filter fun e => e.extType ∉ PROMOTED_EXTENSIONS).map
        (extensionSection dir isClient) := by
  unfold pushRemaining
  induction exts generalizing out with
  | nil => exact (List.append_nil out).symm
  | cons ext exts ih =>
    rw [List.foldl_cons, ih]
    by_cases hpromoted : ext.extType ∈ PROMOTED_EXTENSIONS
    · rw [if_pos hpromoted, List.filter_cons_of_neg (by simpa using hpromoted)]
    · rw [if_neg hpromoted, List.filter_cons_of_pos (by simpa using hpromoted), List.map_cons,
        extensionSection_of_ne (not_promoted_ne hpromoted), List.append_assoc]
      rfl

end Pushes

/-! ## ServerHello -/

theorem pushServerHello_eq (sh : DecodedServerHello) (dir : String) :
    pushServerHello [] sh dir =
      ⟨"Cipher suite (chosen)", dir, .cipherSuiteChosen sh.cipherSuite⟩ ::
        ((pinned (·.extType) [51, 43] sh.extensions).map (extensionSection dir false) ++
          ⟨"Server random (32 bytes)", dir, .random sh.random⟩ ::
            ((pinned (·.extType) [41] sh.extensions ++
              sh.extensions.filter fun e => e.extType ∉ PROMOTED_EXTENSIONS).map
                (extensionSection dir false) ++ [serverLegacySection sh dir])) := by
  have hpins : pinned (·.extType) [51, 43] sh.extensions =
      pinned (·.extType) [51] sh.extensions ++ pinned (·.extType) [43] sh.extensions :=
    pinned_append [51] [43]
  unfold pushServerHello
  simp only
  rw [pushKeyShareIfPresent_eq,
    @pushExtensionIfPresent_eq _ _ false 43 (by decide), @pushExtensionIfPresent_eq _ _ false 41 (by decide),
    @pushRemaining_eq _ _ false, hpins]
  simp only [List.map_append, List.nil_append, List.cons_append, List.append_assoc]

theorem sectionsFor_serverHello {r : RecordEvent} {sh : DecodedServerHello}
    (hbody : r.body = .handshake (.serverHello sh) ∨ r.body = .handshake (.helloRetryRequest sh)) :
    sectionsFor r = pushServerHello [] sh (directionHint r.direction) ++
      [framingSection r (directionHint r.direction)] := by
  unfold sectionsFor
  rcases hbody with hbody | hbody
  · rw [hbody]
  · rw [hbody]

/-! ## Which extensions are shown -/

section Shown

variable {exts : List DecodedExtension} {dir : String} {isClient : Bool}

/-- Among extensions of distinct types, a section shows the one it was made from. -/
theorem shows_iff (hdistinct : (exts.map (·.extType)).Nodup) {x ext : DecodedExtension} (hx : x ∈ exts)
    (hext : ext ∈ exts) : (extensionSection dir isClient x).shows ext ↔ x = ext := by
  have hgeneric : (sectionForExtension x dir).shows ext ↔ x = ext := decide_eq_true_iff
  unfold extensionSection
  by_cases htype : x.extType = 51
  · rw [if_pos htype]
    cases hbody : x.body with
    | keyShare entries =>
      have hshows : ∀ title, Section.shows ⟨title, dir, .keyShare entries isClient⟩ ext ↔
          ext.extType = 51 ∧ ext.body = .keyShare entries := fun _ => decide_eq_true_iff
      simp only
      rw [hshows]
      constructor
      · rintro ⟨htype', -⟩
        exact List.inj_on_of_nodup_map hdistinct hx hext (htype.trans htype'.symm)
      · rintro rfl
        exact ⟨htype, hbody⟩
    | _ => exact hgeneric
  · rw [if_neg htype]
    exact hgeneric

/-- The sections of some of the extensions show each of these once. -/
theorem countP_shows (hdistinct : (exts.map (·.extType)).Nodup) {order : List DecodedExtension}
    (horder : order ⊆ exts) {ext : DecodedExtension} (hext : ext ∈ exts) :
    (order.map (extensionSection dir isClient)).countP (·.shows ext) = order.count ext := by
  rw [List.countP_map, List.count]
  refine List.countP_congr fun x hx => ?_
  rw [Function.comp_apply, beq_iff_eq]
  exact shows_iff hdistinct (horder hx) hext

theorem count_serverHelloOrder (hdistinct : (exts.map (·.extType)).Nodup) {ext : DecodedExtension}
    (hext : ext ∈ exts) :
    (serverHelloOrder exts).count ext = if LostInServerHello ext.extType then 0 else 1 := by
  have hpinned := (pinned_perm (by decide : SERVER_HELLO_PINS.Nodup) hdistinct).count_eq ext
  have hone : exts.count ext = 1 := List.count_eq_one_of_mem (hdistinct.of_map _) hext
  have hfilter : ∀ (p : DecodedExtension → Bool),
      (exts.filter p).count ext = if p ext then 1 else 0 := by
    intro p
    split_ifs with hp
    · rw [List.count_filter hp, hone]
    · refine List.count_eq_zero_of_not_mem fun hmem => hp ?_
      exact (List.mem_filter.mp hmem).2
  unfold serverHelloOrder
  rw [List.count_append, hpinned, hfilter, hfilter]
  simp only [decide_eq_true_eq]
  by_cases hpin : ext.extType ∈ SERVER_HELLO_PINS
  · have hpromoted : ext.extType ∈ PROMOTED_EXTENSIONS :=
      (by decide : SERVER_HELLO_PINS ⊆ PROMOTED_EXTENSIONS) hpin
    have hshown : ¬ LostInServerHello ext.extType := fun hlost => hlost.2 hpin
    rw [if_pos hpin, if_neg (not_not.mpr hpromoted), if_neg hshown]
  · by_cases hpromoted : ext.extType ∈ PROMOTED_EXTENSIONS
    · have hlost : LostInServerHello ext.extType := ⟨hpromoted, hpin⟩
      rw [if_neg hpin, if_neg (not_not.mpr hpromoted), if_pos hlost]
    · have hshown : ¬ LostInServerHello ext.extType := fun hlost => hpromoted hlost.1
      rw [if_neg hpin, if_pos hpromoted, if_neg hshown]

theorem serverHelloOrder_subset (hdistinct : (exts.map (·.extType)).Nodup) :
    serverHelloOrder exts ⊆ exts := by
  intro ext hext
  rcases List.mem_append.mp hext with hpinned | hothers
  · exact ((mem_pinned hdistinct).mp hpinned).1
  · exact (List.mem_filter.mp hothers).1

end Shown

/-- How many sections of a ServerHello show an extension of it. -/
theorem countP_serverHello {r : RecordEvent} {sh : DecodedServerHello}
    (hbody : r.body = .handshake (.serverHello sh) ∨ r.body = .handshake (.helloRetryRequest sh))
    (hdistinct : (sh.extensions.map (·.extType)).Nodup) {ext : DecodedExtension}
    (hext : ext ∈ sh.extensions) :
    (sectionsFor r).countP (·.shows ext) = if LostInServerHello ext.extType then 0 else 1 := by
  have hcount := @countP_shows _ (directionHint r.direction) false hdistinct _
    (serverHelloOrder_subset hdistinct) ext hext
  have hpins : pinned (·.extType) SERVER_HELLO_PINS sh.extensions =
      pinned (·.extType) [51, 43] sh.extensions ++ pinned (·.extType) [41] sh.extensions :=
    pinned_append [51, 43] [41]
  rw [count_serverHelloOrder hdistinct hext, serverHelloOrder, hpins] at hcount
  rw [sectionsFor_serverHello hbody, pushServerHello_eq, ← hcount]
  simp only [List.map_append, List.countP_append, List.countP_cons, List.countP_nil]
  -- The other sections show no extension.
  have hchosen : Section.shows ⟨"Cipher suite (chosen)", directionHint r.direction,
    .cipherSuiteChosen sh.cipherSuite⟩ ext = false := rfl
  have hrandom : Section.shows ⟨"Server random (32 bytes)", directionHint r.direction,
    .random sh.random⟩ ext = false := rfl
  have hlegacy : (serverLegacySection sh (directionHint r.direction)).shows ext = false := rfl
  have hframing : (framingSection r (directionHint r.direction)).shows ext = false := rfl
  rw [hchosen, hrandom, hlegacy, hframing]
  simp only [Bool.false_eq_true, if_false, Nat.add_zero, Nat.add_assoc]

/-- Every extension of a ServerHello is shown in one section just when none of them has a place of its own
in a ClientHello only. -/
theorem serverHello_shown_iff {r : RecordEvent} {sh : DecodedServerHello}
    (hbody : r.body = .handshake (.serverHello sh) ∨ r.body = .handshake (.helloRetryRequest sh))
    (hdistinct : (sh.extensions.map (·.extType)).Nodup) :
    (∀ ext ∈ sh.extensions, (sectionsFor r).countP (·.shows ext) = 1) ↔
      ∀ ext ∈ sh.extensions, ¬ LostInServerHello ext.extType := by
  refine forall₂_congr fun ext hext => ?_
  rw [countP_serverHello hbody hdistinct hext]
  by_cases hlost : LostInServerHello ext.extType
  · rw [if_pos hlost]
    exact iff_of_false Nat.zero_ne_one (not_not.mpr hlost)
  · rw [if_neg hlost]
    exact iff_of_true rfl hlost

namespace Reference

/-- A ServerHello of TLS 1.2 with the given extensions. -/
def answer12 (exts : List DecodedExtension) : DecodedServerHello where
  legacyVersion := 0x0303
  random := HELLO_RETRY_REQUEST_RANDOM
  sessionIdEcho := []
  cipherSuite := knownCipherSuite 0xC02F
  compressionMethod := 0
  extensions := exts

/-- The event of a decoded handshake message. -/
def helloEvent (hs : DecodedHandshake) : RecordEvent where
  direction := .serverToClient
  timestampMs := 0
  sequence := 1
  outerType := .handshake
  outerLength := 0
  raw := []
  body := .handshake hs

end Reference

/-- Secure renegotiation and the chosen key share of a server are shown. -/
theorem serverHello_shown_iff_renegotiation :
    let sh := Reference.answer12 [decodeExtension 65281 [0], decodeExtension 51 [0, 29, 0, 1, 7]]
    ∀ ext ∈ sh.extensions,
      (sectionsFor (Reference.helloEvent (.serverHello sh))).countP (·.shows ext) = 1 := by
  intro sh
  exact (@serverHello_shown_iff (Reference.helloEvent (.serverHello sh)) sh (Or.inl rfl)
    (by decide)).mpr (by decide)

/-- The protocol that a server chooses is not shown. -/
theorem serverHello_hides_alpn :
    ¬ ∀ (r : RecordEvent) (sh : DecodedServerHello),
      r.body = .handshake (.serverHello sh) ∨ r.body = .handshake (.helloRetryRequest sh) →
      (sh.extensions.map (·.extType)).Nodup →
      ∀ ext ∈ sh.extensions, (sectionsFor r).countP (·.shows ext) = 1 := by
  intro h
  have hshown := h (Reference.helloEvent (.serverHello (Reference.answer12
    [decodeExtension 16 [0, 3, 2, 104, 50]]))) _ (Or.inl rfl) (by decide)
    (decodeExtension 16 [0, 3, 2, 104, 50]) List.mem_cons_self
  exact absurd hshown (by decide)

/-! ## ClientHello -/

theorem pushClientHello_eq (ch : DecodedClientHello) (dir : String) :
    pushClientHello [] ch dir =
      cipherSuitesOfferedSection ch dir ::
        ((pinned (·.extType) [51, 43, 13, 10, 45, 41, 42] ch.extensions).map
            (extensionSection dir true) ++
          ⟨"Client random (32 bytes)", dir, .random ch.random⟩ ::
            ((pinned (·.extType) [0, 16] ch.extensions ++
              ch.extensions.filter fun e => e.extType ∉ PROMOTED_EXTENSIONS).map
                (extensionSection dir true) ++ [clientLegacySection ch dir])) := by
  have hpin : ∀ (out : List Section) (extType : UInt16), extType ≠ 51 →
      pushExtensionIfPresent out ch.extensions dir extType =
        out ++ (pinned (·.extType) [extType] ch.extensions).map (extensionSection dir true) :=
    fun out extType h => pushExtensionIfPresent_eq h out
  have hsplit : ∀ (k : UInt16) (pins : List UInt16), pinned (·.extType) (k :: pins) ch.extensions =
      pinned (·.extType) [k] ch.extensions ++ pinned (·.extType) pins ch.extensions :=
    fun k pins => pinned_append [k] pins
  unfold pushClientHello
  simp only
  rw [pushKeyShareIfPresent_eq, hpin _ 43 (by decide), hpin _ 13 (by decide), hpin _ 10 (by decide),
    hpin _ 45 (by decide), hpin _ 41 (by decide), hpin _ 42 (by decide), hpin _ 0 (by decide),
    hpin _ 16 (by decide), @pushRemaining_eq _ _ true, hsplit 51 [43, 13, 10, 45, 41, 42],
    hsplit 43 [13, 10, 45, 41, 42], hsplit 13 [10, 45, 41, 42], hsplit 10 [45, 41, 42],
    hsplit 45 [41, 42], hsplit 41 [42], hsplit 0 [16]]
  simp only [List.map_append, List.nil_append, List.cons_append, List.append_assoc]

/-- The types that have a place of their own among the sections of a ClientHello. -/
theorem mem_promoted_iff {extType : UInt16} :
    extType ∈ [51, 43, 13, 10, 45, 41, 42] ++ [0, 16] ↔ extType ∈ PROMOTED_EXTENSIONS := by
  have hperm : ([51, 43, 13, 10, 45, 41, 42] ++ [0, 16] : List UInt16).Perm PROMOTED_EXTENSIONS := by
    decide
  exact hperm.mem_iff

theorem sectionsFor_clientHello {r : RecordEvent} {ch : DecodedClientHello}
    (hbody : r.body = .handshake (.clientHello ch)) :
    sectionsFor r = pushClientHello [] ch (directionHint r.direction) ++
      [framingSection r (directionHint r.direction)] := by
  unfold sectionsFor
  rw [hbody]

/-- The sections of a ClientHello show its extensions, the ones that matter for the cryptography first, and
all of them once. -/
theorem sectionsFor_clientHello_order {r : RecordEvent} {ch : DecodedClientHello}
    (hbody : r.body = .handshake (.clientHello ch)) (hdistinct : (ch.extensions.map (·.extType)).Nodup) :
    let dir := directionHint r.direction
    let crypto := pinned (·.extType) [51, 43, 13, 10, 45, 41, 42] ch.extensions
    let clear := pinned (·.extType) [0, 16] ch.extensions
    let others := ch.extensions.filter fun e => e.extType ∉ [51, 43, 13, 10, 45, 41, 42, 0, 16]
    sectionsFor r =
        cipherSuitesOfferedSection ch dir :: crypto.map (extensionSection dir true) ++
          ⟨"Client random (32 bytes)", dir, .random ch.random⟩ :: clear.map (extensionSection dir true) ++
          others.map (extensionSection dir true) ++ [clientLegacySection ch dir, framingSection r dir] ∧
      (crypto ++ clear ++ others).Perm ch.extensions ∧
      (sectionsFor r).length = ch.extensions.length + 4 := by
  intro dir crypto clear others
  have hothers : others = ch.extensions.filter fun e => e.extType ∉ PROMOTED_EXTENSIONS := by
    refine List.filter_congr fun e _ => ?_
    rw [decide_eq_decide]
    exact not_congr mem_promoted_iff
  have hsections : sectionsFor r =
      cipherSuitesOfferedSection ch dir :: crypto.map (extensionSection dir true) ++
        ⟨"Client random (32 bytes)", dir, .random ch.random⟩ :: clear.map (extensionSection dir true) ++
        others.map (extensionSection dir true) ++ [clientLegacySection ch dir, framingSection r dir] := by
    rw [sectionsFor_clientHello hbody, pushClientHello_eq, hothers]
    simp only [List.map_append, List.cons_append, List.append_assoc, List.nil_append]
    rfl
  have hperm : (crypto ++ clear ++ others).Perm ch.extensions := by
    have hpins : pinned (·.extType) ([51, 43, 13, 10, 45, 41, 42] ++ [0, 16]) ch.extensions =
        crypto ++ clear := pinned_append _ _
    rw [← hpins]
    exact pinned_append_perm (by decide) hdistinct
  refine ⟨hsections, hperm, ?_⟩
  have hlength := hperm.length_eq
  rw [hsections]
  simp only [List.length_append, List.length_cons, List.length_map, List.length_nil] at hlength ⊢
  omega

/-- A ClientHello with ALPN in front of a key share. -/
def Reference.offer13 : DecodedClientHello where
  legacyVersion := 0x0303
  random := HELLO_RETRY_REQUEST_RANDOM
  sessionId := []
  cipherSuites := [knownCipherSuite 0x1301]
  compressionMethods := [0]
  extensions := [decodeExtension 16 [0, 3, 2, 104, 50], decodeExtension 65281 [0],
    decodeExtension 51 [0, 5, 0, 29, 0, 1, 7]]

theorem sectionsFor_clientHello_order_alpn :
    (sectionsFor (Reference.helloEvent (.clientHello Reference.offer13))).length = 7 :=
  (@sectionsFor_clientHello_order (Reference.helloEvent (.clientHello Reference.offer13))
    Reference.offer13 rfl (by decide)).2.2

end SeeHandshake
