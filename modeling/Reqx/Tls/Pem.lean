import Reqx.Library.Subslices
import Reqx.Core.Error

/-!
# Certificate bundles

`parse_pem_certificate_blocks` cuts a PEM bundle into its certificates with a cursor
and searches for markers. It accepts exactly the bundles of a small grammar, whatever
their length, and returns their blocks.
-/

namespace Reqx

open Slices

/-! ## The code -/

inductive TlsBackend where
  | rustlsRing | rustlsAwsLcRs | rustlsGraviola | rustlsNoProvider | nativeTls
  deriving DecidableEq, Repr

def TlsBackend.asStr : TlsBackend → String
  | rustlsRing => "rustls-ring"
  | rustlsAwsLcRs => "rustls-aws-lc-rs"
  | rustlsGraviola => "rustls-graviola"
  | rustlsNoProvider => "rustls-no-provider"
  | nativeTls => "native-tls"

def tlsConfigError (backend : TlsBackend) (message : Text) : Error :=
  .tlsConfig backend.asStr message

def asciiBytes (s : String) : Bytes := s.toList.map fun c ↦ UInt8.ofNat c.toNat

def pemBeginPrefix : Bytes := asciiBytes "-----BEGIN "
def pemEndPrefix : Bytes := asciiBytes "-----END "
def pemBegin : Bytes := asciiBytes "-----BEGIN CERTIFICATE-----"
def pemEnd : Bytes := asciiBytes "-----END CERTIFICATE-----"

/-- `u8::is_ascii_whitespace`, which has no vertical tab. -/
def isAsciiWhitespace (b : UInt8) : Bool :=
  b = 0x20 ∨ b = 0x09 ∨ b = 0x0A ∨ b = 0x0C ∨ b = 0x0D

def isLineBreak (b : UInt8) : Bool := b = 0x0A ∨ b = 0x0D

def containsPemMarker (haystack marker : Bytes) : Bool :=
  (findSubslice haystack marker).isSome

def isPemOuterPadding (value : Bytes) : Bool := value.all isAsciiWhitespace

inductive PemFault where
  | outsideData | unmatchedEnd | otherBlock | missingEnd | nestedBegin | noBlocks
  deriving DecidableEq, Repr

def PemFault.message (context : Text) : PemFault → Text
  | outsideData => "PEM ".toList ++ context ++ " contains data outside certificate blocks".toList
  | unmatchedEnd =>
    "PEM ".toList ++ context ++ " contains an end marker without a matching begin marker".toList
  | otherBlock => "PEM ".toList ++ context ++ " contains a non-certificate block".toList
  | missingEnd =>
    "PEM ".toList ++ context ++ " block is missing its END CERTIFICATE marker".toList
  | nestedBegin => "PEM ".toList ++ context ++ " contains a nested begin marker".toList
  | noBlocks => "no certificate blocks found in PEM ".toList ++ context

def pemError (backend : TlsBackend) (context : Text) (fault : PemFault) : Error :=
  tlsConfigError backend (fault.message context)

/-- The loop over the line breaks behind a block. -/
def skipLineBreaks (bundle : Bytes) : ℕ → ℕ → Option ℕ
  | 0, _ => none
  | rounds + 1, blockEnd =>
    if blockEnd < bundle.length then do
      let byte ← bundle[blockEnd]?
      if isLineBreak byte then skipLineBreaks bundle rounds (blockEnd + 1) else some blockEnd
    else some blockEnd

def finishBlocks (backend : TlsBackend) (context : Text) (blocks : List Bytes) :
    Except Error (List Bytes) :=
  if blocks.isEmpty then .error (pemError backend context .noBlocks) else .ok blocks

/-- The loop over the blocks. A slice out of range gives `none`, as does running out of rounds. -/
def parseBlocks (backend : TlsBackend) (pemBundle : Bytes) (context : Text) :
    ℕ → ℕ → List Bytes → Option (Except Error (List Bytes))
  | 0, _, _ => none
  | rounds + 1, cursor, blocks => do
    let remaining ← sliceFrom? pemBundle cursor
    match findSubslice remaining pemBeginPrefix,
        findSubslice remaining pemEndPrefix with
    | none, none =>
      if !isPemOuterPadding remaining then
        some (.error (pemError backend context .outsideData))
      else some (finishBlocks backend context blocks)
    | none, some _ => some (.error (pemError backend context .unmatchedEnd))
    | some beginOffset, nextEnd =>
      if nextEnd.any (· < beginOffset) then
        some (.error (pemError backend context .unmatchedEnd))
      else do
        let start := cursor + beginOffset
        let padding ← slice? pemBundle cursor start
        if !isPemOuterPadding padding then
          some (.error (pemError backend context .outsideData))
        else do
          let opened ← sliceFrom? pemBundle start
          if !pemBegin.isPrefixOf opened then
            some (.error (pemError backend context .otherBlock))
          else do
            let endSearchStart := start + pemBegin.length
            let searched ← sliceFrom? pemBundle endSearchStart
            match findSubslice searched pemEnd with
            | none => some (.error (pemError backend context .missingEnd))
            | some endOffset => do
              let content ← slice? pemBundle endSearchStart
                (endSearchStart + endOffset)
              if containsPemMarker content pemBeginPrefix then
                some (.error (pemError backend context .nestedBegin))
              else do
                let stop := endSearchStart + endOffset + pemEnd.length
                let blockEnd ← skipLineBreaks pemBundle (pemBundle.length + 1) stop
                let block ← slice? pemBundle start blockEnd
                parseBlocks backend pemBundle context rounds blockEnd (blocks ++ [block])

def parsePemCertificateBlocks (backend : TlsBackend) (pemBundle : Bytes) (context : Text) :
    Option (Except Error (List Bytes)) :=
  parseBlocks backend pemBundle context (pemBundle.length + 1) 0 []

/-! ## One round -/

/-- What a round does with the bytes that are left: a fault, the end, or a block with the bytes
behind it. -/
def nextBlock (remaining : Bytes) : Except PemFault (Option (Bytes × Bytes)) :=
  match findSubslice remaining pemBeginPrefix,
      findSubslice remaining pemEndPrefix with
  | none, none => if !isPemOuterPadding remaining then .error .outsideData else .ok none
  | none, some _ => .error .unmatchedEnd
  | some beginOffset, nextEnd =>
    if nextEnd.any (· < beginOffset) then .error .unmatchedEnd
    else if !isPemOuterPadding (remaining.take beginOffset) then .error .outsideData
    else if !pemBegin.isPrefixOf (remaining.drop beginOffset) then .error .otherBlock
    else
      let searched := remaining.drop (beginOffset + pemBegin.length)
      match findSubslice searched pemEnd with
      | none => .error .missingEnd
      | some endOffset =>
        let content := searched.take endOffset
        if containsPemMarker content pemBeginPrefix then .error .nestedBegin
        else
          let behind := searched.drop (endOffset + pemEnd.length)
          .ok (some (pemBegin ++ content ++ pemEnd ++ behind.takeWhile isLineBreak,
            behind.dropWhile isLineBreak))

/-- The rest of the loop, given what the round found. -/
def resume (backend : TlsBackend) (pemBundle : Bytes) (context : Text) (rounds : ℕ)
    (blocks : List Bytes) :
    Except PemFault (Option (Bytes × Bytes)) → Option (Except Error (List Bytes))
  | .error fault => some (.error (pemError backend context fault))
  | .ok none => some (finishBlocks backend context blocks)
  | .ok (some (block, rest)) =>
    parseBlocks backend pemBundle context rounds (pemBundle.length - rest.length)
      (blocks ++ [block])

section Round

variable {backend : TlsBackend} {context : Text} {before remaining : Bytes} {rounds : ℕ}
  {blocks : List Bytes}

theorem skipLineBreaks_append (before behind : Bytes) {rounds : ℕ} (h : behind.length < rounds) :
    skipLineBreaks (before ++ behind) rounds before.length =
      some (before.length + (behind.takeWhile isLineBreak).length) := by
  induction behind generalizing before rounds with
  | nil =>
    obtain ⟨rounds, rfl⟩ := Nat.exists_eq_succ_of_ne_zero (Nat.ne_zero_of_lt h)
    simp [skipLineBreaks]
  | cons b behind ih =>
    obtain ⟨rounds, rfl⟩ := Nat.exists_eq_succ_of_ne_zero (Nat.ne_zero_of_lt h)
    rw [List.length_cons, Nat.succ_lt_succ_iff] at h
    have hmore := ih (before ++ [b]) h
    rw [List.append_assoc, List.singleton_append, List.length_append, List.length_singleton]
      at hmore
    have hread : (before ++ b :: behind)[before.length]? = some b := by simp
    rw [skipLineBreaks, if_pos (by simp), hread, Option.bind_eq_bind, Option.bind_some]
    cases hb : isLineBreak b with
    | true =>
      rw [if_pos rfl, hmore, List.takeWhile_cons_of_pos hb, List.length_cons]
      congr 1
      omega
    | false =>
      rw [if_neg Bool.false_ne_true, List.takeWhile_cons_of_neg (by rw [hb]; decide)]
      rfl

/-- A block reaches up to the bytes behind the line breaks that follow it. -/
theorem blockEnd_eq (before pad content behind : Bytes) :
    skipLineBreaks (before ++ (pad ++ (pemBegin ++ (content ++ (pemEnd ++ behind)))))
        ((before ++ (pad ++ (pemBegin ++ (content ++ (pemEnd ++ behind))))).length + 1)
        (before.length + pad.length + pemBegin.length + content.length + pemEnd.length) =
      some ((before ++ (pad ++ (pemBegin ++ (content ++ (pemEnd ++ behind))))).length -
        (behind.dropWhile isLineBreak).length) ∧
    slice? (before ++ (pad ++ (pemBegin ++ (content ++ (pemEnd ++ behind)))))
        (before.length + pad.length)
        ((before ++ (pad ++ (pemBegin ++ (content ++ (pemEnd ++ behind))))).length -
          (behind.dropWhile isLineBreak).length) =
      some (pemBegin ++ content ++ pemEnd ++ behind.takeWhile isLineBreak) := by
  have hbehind : behind.takeWhile isLineBreak ++ behind.dropWhile isLineBreak = behind :=
    List.takeWhile_append_dropWhile
  have hlengths := congrArg List.length hbehind
  rw [List.length_append] at hlengths
  have hwhole : (before ++ (pad ++ (pemBegin ++ (content ++ (pemEnd ++ behind))))).length =
      before.length + pad.length + pemBegin.length + content.length + pemEnd.length +
        behind.length := by
    simp only [List.length_append]
    omega
  constructor
  · have hskip := skipLineBreaks_append (before ++ pad ++ pemBegin ++ content ++ pemEnd) behind
      (show behind.length < (before ++ (pad ++ (pemBegin ++ (content ++ (pemEnd ++
        behind))))).length + 1 by omega)
    simp only [List.append_assoc, List.length_append] at hskip hwhole ⊢
    simp only [Nat.add_assoc] at hskip hwhole ⊢
    rw [hskip]
    congr 1
    omega
  · refine slice?_of_eq (a := before ++ pad) (c := behind.dropWhile isLineBreak) ?_
      (List.length_append).symm ?_
    · conv_lhs => rw [← hbehind]
      simp only [List.append_assoc]
    · rw [hwhole]
      simp only [List.length_append]
      omega

theorem parseBlocks_succ (backend : TlsBackend) (context : Text) (before remaining : Bytes)
    (rounds : ℕ) (blocks : List Bytes) :
    parseBlocks backend (before ++ remaining) context (rounds + 1) before.length blocks =
      resume backend (before ++ remaining) context rounds blocks (nextBlock remaining) := by
  rw [parseBlocks, sliceFrom?_append, nextBlock]
  simp only [Option.bind_eq_bind, Option.bind_some]
  cases hbegin : findSubslice remaining pemBeginPrefix with
  | none =>
    cases findSubslice remaining pemEndPrefix with
    | none =>
      dsimp only
      split <;> rfl
    | some => rfl
  | some beginOffset =>
    dsimp only
    generalize findSubslice remaining pemEndPrefix = nextEnd
    obtain ⟨pad, opened, hopened, rfl⟩ := exists_of_findSubslice (by decide) hbegin
    generalize pemBeginPrefix ++ opened = opened at hopened
    subst hopened
    split
    · rfl
    have hpad : slice? (before ++ (pad ++ opened)) before.length
        (before.length + pad.length) = some pad :=
      slice?_of_eq (c := opened) (by simp) rfl rfl
    have hopened : sliceFrom? (before ++ (pad ++ opened)) (before.length + pad.length) =
        some opened := sliceFrom?_of_eq (a := before ++ pad) (by simp) (by simp)
    rw [hpad, Option.bind_some, List.take_left]
    split
    · rfl
    rw [hopened, Option.bind_some, List.drop_left]
    split
    · rfl
    next hstarts =>
      rw [Bool.not_eq_true', Bool.not_eq_false, List.isPrefixOf_iff_prefix] at hstarts
      obtain ⟨searched, rfl⟩ := hstarts
      have hsearched : sliceFrom? (before ++ (pad ++ (pemBegin ++ searched)))
          (before.length + pad.length + pemBegin.length) = some searched :=
        sliceFrom?_of_eq (a := before ++ pad ++ pemBegin) (by simp)
          (by simp [Nat.add_assoc])
      rw [hsearched, Option.bind_some, drop_append_append]
      cases hend : findSubslice searched pemEnd with
      | none => rfl
      | some endOffset =>
        obtain ⟨content, behind, rfl, rfl⟩ := exists_of_findSubslice (by decide) hend
        have hcontent : slice?
            (before ++ (pad ++ (pemBegin ++ (content ++ (pemEnd ++ behind)))))
            (before.length + pad.length + pemBegin.length)
            (before.length + pad.length + pemBegin.length + content.length) = some content :=
          slice?_of_eq (a := before ++ pad ++ pemBegin) (c := pemEnd ++ behind)
            (by simp) (by simp [Nat.add_assoc]) (by simp [Nat.add_assoc])
        dsimp only
        rw [hcontent, Option.bind_some, List.take_left, drop_append_append]
        split
        · rfl
        obtain ⟨hskip, hblock⟩ := blockEnd_eq before pad content behind
        rw [hskip, Option.bind_some, hblock, Option.bind_some]
        rfl

end Round

/-! ## The grammar -/

def PemPadding (bytes : Bytes) : Prop := ∀ b ∈ bytes, isAsciiWhitespace b = true

/-- A certificate and the white space behind it: the first end marker is the one right behind the
content, and no block begins in the content. -/
structure PemPiece where
  content : Bytes
  gap : Bytes
  closes : ∀ i < content.length, ¬ pemEnd <+: (content ++ pemEnd).drop i
  unnested : ¬ pemBeginPrefix <:+: content
  padding : PemPadding gap

namespace PemPiece

def certificate (piece : PemPiece) : Bytes := pemBegin ++ piece.content ++ pemEnd

def bytes (piece : PemPiece) : Bytes := piece.certificate ++ piece.gap

/-- What the parser returns for it. -/
def block (piece : PemPiece) : Bytes := piece.certificate ++ piece.gap.takeWhile isLineBreak

end PemPiece

section Grammar

variable {pad content behind remaining block rest : Bytes}

theorem isPemOuterPadding_iff {bytes : Bytes} : isPemOuterPadding bytes = true ↔ PemPadding bytes :=
  List.all_eq_true

theorem hyphen_notMem_of_padding (h : PemPadding pad) : 45 ∉ pad := fun hmem ↦
  absurd (h 45 hmem) (by decide)

theorem containsPemMarker_eq_false_iff :
    containsPemMarker content pemBeginPrefix = false ↔ ¬ pemBeginPrefix <:+: content := by
  rw [containsPemMarker, Option.isSome_eq_false_iff, Option.isNone_iff_eq_none,
    findSubslice_eq_none_iff (by decide), infix_iff_prefix_drop, not_exists]

theorem nextBlock_padding (h : PemPadding remaining) : nextBlock remaining = .ok none := by
  have hnone {c : UInt8} {needle : Bytes} (hc : c = 45) :
      findSubslice remaining (c :: needle) = none := by
    rw [findSubslice_eq_none_iff (List.cons_ne_nil _ _)]
    intro i hi
    have hmem := List.mem_of_mem_drop (hi.subset List.mem_cons_self)
    exact hyphen_notMem_of_padding h (hc ▸ hmem)
  have hbegin : findSubslice remaining pemBeginPrefix = none := hnone rfl
  have hend : findSubslice remaining pemEndPrefix = none := hnone rfl
  rw [nextBlock, hbegin, hend, isPemOuterPadding_iff.mpr h]
  rfl

theorem padding_of_nextBlock (h : nextBlock remaining = .ok none) : PemPadding remaining := by
  unfold nextBlock at h
  split at h
  · split at h
    · cases h
    next hpadding => exact isPemOuterPadding_iff.mp (by simpa using hpadding)
  · cases h
  · split_ifs at h
    dsimp only at h
    split at h
    · cases h
    · split_ifs at h
      cases h

theorem nextBlock_block (hpad : PemPadding pad)
    (hcloses : ∀ i < content.length, ¬ pemEnd <+: (content ++ pemEnd).drop i)
    (hunnested : ¬ pemBeginPrefix <:+: content) (behind : Bytes) :
    nextBlock (pad ++ (pemBegin ++ (content ++ (pemEnd ++ behind)))) =
      .ok (some (pemBegin ++ content ++ pemEnd ++ behind.takeWhile isLineBreak,
        behind.dropWhile isLineBreak)) := by
  have hhyphen := hyphen_notMem_of_padding hpad
  have hbegin : findSubslice (pad ++ (pemBegin ++ (content ++ (pemEnd ++ behind))))
      pemBeginPrefix = some pad.length := by
    rw [findSubslice_eq_some_iff (by decide), List.drop_left]
    refine ⟨?_, fun j hj hprefix ↦ absurd (length_le_of_prefix_drop hhyphen hprefix) ?_⟩
    · have hmarker : pemBeginPrefix <+: pemBegin := ⟨asciiBytes "CERTIFICATE-----", by decide⟩
      exact hmarker.trans (List.prefix_append _ _)
    · exact Nat.not_le.mpr hj
  have hlater : (findSubslice (pad ++ (pemBegin ++ (content ++ (pemEnd ++ behind))))
      pemEndPrefix).any (· < pad.length) = false := by
    cases hend : findSubslice (pad ++ (pemBegin ++ (content ++ (pemEnd ++ behind))))
        pemEndPrefix with
    | none => rfl
    | some endOffset =>
      have hprefix := ((findSubslice_eq_some_iff (by decide)).mp hend).1
      exact decide_eq_false (Nat.not_lt.mpr (length_le_of_prefix_drop hhyphen hprefix))
  have hopens : pemBegin.isPrefixOf (pemBegin ++ (content ++ (pemEnd ++ behind))) = true :=
    List.isPrefixOf_iff_prefix.mpr (List.prefix_append _ _)
  have hclose : findSubslice (content ++ (pemEnd ++ behind)) pemEnd =
      some content.length := by
    rw [findSubslice_eq_some_iff (by decide), List.drop_left]
    refine ⟨List.prefix_append _ _, fun j hj hprefix ↦ hcloses j hj ?_⟩
    rw [← List.append_assoc, prefix_drop_append_iff] at hprefix
    · exact hprefix
    · rw [List.length_append]
      omega
  rw [nextBlock, hbegin]
  simp only [hlater, List.take_left, isPemOuterPadding_iff.mpr hpad, List.drop_left, hopens,
    drop_append_append, hclose, containsPemMarker_eq_false_iff.mpr hunnested,
    Bool.not_true, Bool.false_eq_true, if_false]

theorem exists_of_nextBlock (h : nextBlock remaining = .ok (some (block, rest))) :
    ∃ pad content behind, PemPadding pad ∧
      (∀ i < content.length, ¬ pemEnd <+: (content ++ pemEnd).drop i) ∧
      ¬ pemBeginPrefix <:+: content ∧
      remaining = pad ++ (pemBegin ++ (content ++ (pemEnd ++ behind))) ∧
      block = pemBegin ++ content ++ pemEnd ++ behind.takeWhile isLineBreak ∧
      rest = behind.dropWhile isLineBreak := by
  unfold nextBlock at h
  split at h
  · split at h <;> cases h
  · cases h
  next beginOffset hbegin =>
    split_ifs at h with hlater hpad hopens
    dsimp only at h
    split at h
    · cases h
    next endOffset hclose =>
      split_ifs at h with hnested
      rw [Bool.not_eq_true', Bool.not_eq_false] at hpad hopens
      obtain ⟨searched, hsearched⟩ := List.isPrefixOf_iff_prefix.mp hopens
      have hdrop : remaining.drop (beginOffset + pemBegin.length) = searched := by
        rw [← List.drop_drop, ← hsearched, List.drop_left]
      rw [hdrop] at h hclose hnested
      have hfirst := ((findSubslice_eq_some_iff (by decide)).mp hclose).2
      obtain ⟨content, behind, rfl, rfl⟩ := exists_of_findSubslice (by decide) hclose
      rw [List.take_left] at hnested h
      rw [drop_append_append] at h
      obtain ⟨rfl, rfl⟩ := Prod.mk.inj (Option.some.inj (Except.ok.inj h))
      refine ⟨remaining.take beginOffset, content, behind, isPemOuterPadding_iff.mp hpad, ?_,
        containsPemMarker_eq_false_iff.mp (Bool.eq_false_iff.mpr hnested), ?_, rfl, rfl⟩
      · intro j hj hprefix
        refine hfirst j hj ?_
        rw [← List.append_assoc, prefix_drop_append_iff]
        · exact hprefix
        · rw [List.length_append]
          omega
      · rw [hsearched, List.take_append_drop]

end Grammar

/-! ## Whole bundles -/

section Bundles

variable (backend : TlsBackend) (context : Text)

/-- The rounds of the loop on the bytes that are left. -/
inductive PemRun : Bytes → List Bytes → Except Error (List Bytes) → Prop
  | fault {remaining : Bytes} {blocks : List Bytes} {fault : PemFault} :
      nextBlock remaining = .error fault →
      PemRun remaining blocks (.error (pemError backend context fault))
  | done {remaining : Bytes} {blocks : List Bytes} : nextBlock remaining = .ok none →
      PemRun remaining blocks (finishBlocks backend context blocks)
  | block {remaining block rest : Bytes} {blocks : List Bytes}
      {outcome : Except Error (List Bytes)} :
      nextBlock remaining = .ok (some (block, rest)) → PemRun rest (blocks ++ [block]) outcome →
      PemRun remaining blocks outcome

variable {backend context} {remaining rest block : Bytes} {blocks : List Bytes}
  {outcome : Except Error (List Bytes)}

/-- A round takes off what it returns. -/
theorem exists_front_of_nextBlock (h : nextBlock remaining = .ok (some (block, rest))) :
    ∃ front, remaining = front ++ rest ∧ front ≠ [] := by
  obtain ⟨pad, content, behind, -, -, -, rfl, -, rfl⟩ := exists_of_nextBlock h
  refine ⟨pad ++ (pemBegin ++ (content ++ (pemEnd ++ behind.takeWhile isLineBreak))), ?_, ?_⟩
  · conv_lhs => rw [← List.takeWhile_append_dropWhile (p := isLineBreak) (l := behind)]
    simp only [List.append_assoc]
  · have hne : pemBegin ≠ [] := by decide
    simp [hne]

theorem exists_pemRun (backend : TlsBackend) (context : Text) (remaining : Bytes)
    (blocks : List Bytes) : ∃ outcome, PemRun backend context remaining blocks outcome := by
  induction hlength : remaining.length using Nat.strong_induction_on
    generalizing remaining blocks with
  | _ n ih =>
    cases hround : nextBlock remaining with
    | error fault => exact ⟨_, .fault hround⟩
    | ok found =>
      cases found with
      | none => exact ⟨_, .done hround⟩
      | some found =>
        obtain ⟨front, hfront, hne⟩ := exists_front_of_nextBlock hround
        have hpos := List.length_pos_iff.mpr hne
        have hless : found.2.length < n := by
          rw [← hlength, hfront, List.length_append]
          omega
        obtain ⟨outcome, hrun⟩ := ih found.2.length hless found.2 (blocks ++ [found.1]) rfl
        exact ⟨outcome, .block hround hrun⟩

/-- With more rounds than bytes the loop returns, and it never reads out of range. -/
theorem PemRun.parseBlocks_eq (h : PemRun backend context remaining blocks outcome) (before : Bytes)
    {rounds : ℕ} (hrounds : remaining.length < rounds) :
    parseBlocks backend (before ++ remaining) context rounds before.length blocks =
      some outcome := by
  induction h generalizing before rounds with
  | fault hround =>
    obtain ⟨rounds, rfl⟩ := Nat.exists_eq_succ_of_ne_zero (Nat.ne_zero_of_lt hrounds)
    rw [parseBlocks_succ, hround]
    rfl
  | done hround =>
    obtain ⟨rounds, rfl⟩ := Nat.exists_eq_succ_of_ne_zero (Nat.ne_zero_of_lt hrounds)
    rw [parseBlocks_succ, hround]
    rfl
  | @block remaining block rest blocks outcome hround _ ih =>
    obtain ⟨rounds, rfl⟩ := Nat.exists_eq_succ_of_ne_zero (Nat.ne_zero_of_lt hrounds)
    obtain ⟨front, rfl, hne⟩ := exists_front_of_nextBlock hround
    have hpos := List.length_pos_iff.mpr hne
    rw [List.length_append] at hrounds
    have hrest := ih (before ++ front) (show rest.length < rounds by omega)
    have hcursor : (before ++ (front ++ rest)).length - rest.length =
        (before ++ front).length := by
      simp only [List.length_append]
      omega
    rw [parseBlocks_succ, hround, resume, hcursor, ← List.append_assoc, hrest]

theorem PemRun.parse_eq (h : PemRun backend context remaining [] outcome) :
    parsePemCertificateBlocks backend remaining context = some outcome :=
  h.parseBlocks_eq [] (Nat.lt_succ_self _)

/-- The bytes are white space and then these pieces. -/
def PemLayout (bytes lead : Bytes) (pieces : List PemPiece) : Prop :=
  PemPadding lead ∧ bytes = lead ++ pieces.flatMap PemPiece.bytes

section LineBreaks

variable {gap behind : Bytes} (h : ∀ b ∈ behind.head?, isLineBreak b = false)
include h

theorem takeWhile_lineBreak_append :
    (gap ++ behind).takeWhile isLineBreak = gap.takeWhile isLineBreak := by
  induction gap with
  | nil =>
    cases behind with
    | nil => rfl
    | cons b behind => exact List.takeWhile_cons_of_neg (by simp [h b rfl])
  | cons b gap ih =>
    rw [List.cons_append, List.takeWhile_cons, List.takeWhile_cons, ih]

theorem dropWhile_lineBreak_append :
    (gap ++ behind).dropWhile isLineBreak = gap.dropWhile isLineBreak ++ behind := by
  have hwhole : (gap ++ behind).takeWhile isLineBreak ++ (gap ++ behind).dropWhile isLineBreak =
      gap.takeWhile isLineBreak ++ (gap.dropWhile isLineBreak ++ behind) := by
    rw [List.takeWhile_append_dropWhile, ← List.append_assoc, List.takeWhile_append_dropWhile]
  rw [takeWhile_lineBreak_append h] at hwhole
  exact List.append_cancel_left hwhole

end LineBreaks

theorem isLineBreak_of_head_pieces (pieces : List PemPiece) :
    ∀ b ∈ (pieces.flatMap PemPiece.bytes).head?, isLineBreak b = false := by
  intro b hb
  cases pieces with
  | nil => cases hb
  | cons piece pieces =>
    have hhead : ((piece :: pieces).flatMap PemPiece.bytes).head? = some 45 := rfl
    obtain rfl : b = 45 := Option.some.inj (hb.symm.trans hhead)
    decide

theorem PemLayout.run {lead : Bytes} {pieces : List PemPiece}
    (h : PemLayout remaining lead pieces) :
    PemRun backend context remaining blocks
      (finishBlocks backend context (blocks ++ pieces.map PemPiece.block)) := by
  induction pieces generalizing remaining lead blocks with
  | nil =>
    obtain ⟨hlead, rfl⟩ := h
    rw [List.flatMap_nil, List.append_nil, List.map_nil, List.append_nil]
    exact .done (nextBlock_padding hlead)
  | cons piece pieces ih =>
    obtain ⟨hlead, rfl⟩ := h
    have hbreak := isLineBreak_of_head_pieces pieces
    have hround := nextBlock_block hlead piece.closes piece.unnested
      (piece.gap ++ pieces.flatMap PemPiece.bytes)
    rw [takeWhile_lineBreak_append hbreak, dropWhile_lineBreak_append hbreak] at hround
    have hbytes : lead ++ (piece :: pieces).flatMap PemPiece.bytes =
        lead ++ (pemBegin ++ (piece.content ++ (pemEnd ++
          (piece.gap ++ pieces.flatMap PemPiece.bytes)))) := by
      simp only [List.flatMap_cons, PemPiece.bytes, PemPiece.certificate, List.append_assoc]
    have htail : PemLayout (piece.gap.dropWhile isLineBreak ++ pieces.flatMap PemPiece.bytes)
        (piece.gap.dropWhile isLineBreak) pieces :=
      ⟨fun b hb ↦ piece.padding b (List.dropWhile_subset _ hb), rfl⟩
    have hrest := @ih _ (blocks ++ [piece.block]) _ htail
    rw [List.append_assoc, List.singleton_append, ← List.map_cons] at hrest
    rw [hbytes]
    exact .block hround hrest

theorem isAsciiWhitespace_of_isLineBreak {b : UInt8} (h : isLineBreak b = true) :
    isAsciiWhitespace b = true := by
  rcases of_decide_eq_true h with rfl | rfl <;> decide

theorem head?_of_dropWhile_lineBreak {behind lead rest : Bytes}
    (h : behind.dropWhile isLineBreak = lead ++ rest) :
    ∀ b ∈ lead.head?, isLineBreak b = false := by
  intro b hb
  have hhead : (behind.dropWhile isLineBreak).head? = some b := by
    rw [h, List.head?_append, hb]
    rfl
  have hne : behind.dropWhile isLineBreak ≠ [] := fun hnil ↦ by
    rw [hnil] at hhead
    cases hhead
  rw [List.head?_eq_some_head hne] at hhead
  rw [← Option.some.inj hhead]
  exact List.head_dropWhile_not isLineBreak hne

theorem PemRun.layout {found : List Bytes} (h : PemRun backend context remaining blocks outcome)
    (hok : outcome = .ok found) :
    ∃ lead pieces, PemLayout remaining lead pieces ∧
      found = blocks ++ pieces.map PemPiece.block ∧ found ≠ [] := by
  induction h with
  | fault => cases hok
  | @done remaining blocks hround =>
    unfold finishBlocks at hok
    split at hok
    · cases hok
    next hne =>
      cases hok
      refine ⟨remaining, [], ⟨padding_of_nextBlock hround, ?_⟩, ?_, ?_⟩
      · rw [List.flatMap_nil, List.append_nil]
      · rw [List.map_nil, List.append_nil]
      · exact fun h ↦ hne (List.isEmpty_iff.mpr h)
  | @block remaining block rest blocks outcome hround _ ih =>
    obtain ⟨lead, pieces, ⟨hlead, hrest⟩, hfound, hne⟩ := ih hok
    obtain ⟨pad, content, behind, hpad, hcloses, hunnested, rfl, rfl, hbehind⟩ :=
      exists_of_nextBlock hround
    have hrun : ∀ b ∈ behind.takeWhile isLineBreak, isLineBreak b = true := fun b hb ↦
      List.mem_takeWhile_imp hb
    have hstop : ∀ b ∈ lead.head?, isLineBreak b = false :=
      head?_of_dropWhile_lineBreak (hbehind.symm.trans hrest)
    have hgap : PemPadding (behind.takeWhile isLineBreak ++ lead) :=
      List.forall_mem_append.mpr
        ⟨fun b hb ↦ isAsciiWhitespace_of_isLineBreak (hrun b hb), hlead⟩
    refine ⟨pad, ⟨content, _, hcloses, hunnested, hgap⟩ :: pieces, ⟨hpad, ?_⟩, ?_, hne⟩
    · have hwhole : behind = behind.takeWhile isLineBreak ++
          (lead ++ pieces.flatMap PemPiece.bytes) := by
        rw [← hrest, hbehind, List.takeWhile_append_dropWhile]
      conv_lhs => rw [hwhole]
      simp only [List.flatMap_cons, PemPiece.bytes, PemPiece.certificate, List.append_assoc]
    · have hblock : (behind.takeWhile isLineBreak ++ lead).takeWhile isLineBreak =
          behind.takeWhile isLineBreak := by
        rw [takeWhile_lineBreak_append hstop, List.takeWhile_eq_self_iff.mpr hrun]
      rw [hfound, List.append_assoc, List.singleton_append, List.map_cons, PemPiece.block,
        PemPiece.certificate, hblock]

end Bundles

/-- The parser returns for every input. It accepts exactly white space followed by one or more
certificates, each followed by white space, and returns them with the line breaks that follow
them; everything else in the input is white space. -/
theorem pem_bundle_grammar (backend : TlsBackend) (pemBundle : Bytes) (context : Text) :
    (∃ outcome, parsePemCertificateBlocks backend pemBundle context = some outcome) ∧
    (∀ blocks, parsePemCertificateBlocks backend pemBundle context = some (.ok blocks) ↔
      ∃ lead pieces, PemPadding lead ∧ pieces ≠ [] ∧
        pemBundle = lead ++ pieces.flatMap PemPiece.bytes ∧
        blocks = pieces.map PemPiece.block) ∧
    ∀ blocks, parsePemCertificateBlocks backend pemBundle context = some (.ok blocks) →
      ∃ lead gaps, PemPadding lead ∧ gaps.length = blocks.length ∧
        (∀ gap ∈ gaps, PemPadding gap) ∧
        pemBundle = lead ++ (List.zipWith (· ++ ·) blocks gaps).flatten := by
  obtain ⟨outcome, hrun⟩ := exists_pemRun backend context pemBundle []
  have hparse := hrun.parse_eq
  have hlayout (blocks : List Bytes)
      (h : parsePemCertificateBlocks backend pemBundle context = some (.ok blocks)) :
      ∃ lead pieces, PemLayout pemBundle lead pieces ∧ blocks = pieces.map PemPiece.block ∧
        blocks ≠ [] :=
    hrun.layout (Option.some.inj (hparse.symm.trans h))
  refine ⟨⟨outcome, hparse⟩, fun blocks ↦ ⟨fun h ↦ ?_, ?_⟩, fun blocks h ↦ ?_⟩
  · obtain ⟨lead, pieces, ⟨hlead, hbytes⟩, hblocks, hne⟩ := hlayout blocks h
    refine ⟨lead, pieces, hlead, fun hnil ↦ hne ?_, hbytes, hblocks⟩
    rw [hblocks, hnil, List.map_nil]
  · rintro ⟨lead, pieces, hlead, hne, hbytes, rfl⟩
    have hpieces : PemLayout pemBundle lead pieces := ⟨hlead, hbytes⟩
    have hfinish : finishBlocks backend context ([] ++ pieces.map PemPiece.block) =
        .ok (pieces.map PemPiece.block) :=
      if_neg fun h ↦ hne (List.map_eq_nil_iff.mp (List.isEmpty_iff.mp h))
    rw [← hfinish]
    exact hpieces.run.parse_eq
  · obtain ⟨lead, pieces, ⟨hlead, hbytes⟩, rfl, -⟩ := hlayout blocks h
    refine ⟨lead, pieces.map fun piece ↦ piece.gap.dropWhile isLineBreak, hlead, ?_, ?_, ?_⟩
    · rw [List.length_map, List.length_map]
    · intro gap hgap
      obtain ⟨piece, -, rfl⟩ := List.mem_map.mp hgap
      exact fun b hb ↦ piece.padding b (List.dropWhile_subset _ hb)
    · rw [hbytes, List.zipWith_map, List.zipWith_self, ← List.flatMap_def]
      refine congrArg (lead ++ ·) (List.flatMap_congr fun piece _ ↦ ?_)
      rw [PemPiece.block, List.append_assoc, List.takeWhile_append_dropWhile]
      rfl

end Reqx
