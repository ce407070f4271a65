import Reqx.Library.Utf8

/-!
# What lossy decoding means

The bytes of a text are the encodings of its characters. A part of other bytes is as
long as it can still be continued to an encoding, or one byte, and stands for one
replacement character. The decoder meets this description, which determines the text.
-/

namespace Utf8

/-- Some encoding begins with these bytes. -/
def Extendable (part : List UInt8) : Prop := ∃ c, part <+: String.utf8EncodeChar c

/-- The text of these bytes, with one replacement character for each maximal invalid part. -/
inductive Lossy : List UInt8 → Text → Prop
  | nil : Lossy [] []
  | char {rest : List UInt8} {text : Text} (c : Char) : Lossy rest text →
      Lossy (String.utf8EncodeChar c ++ rest) (c :: text)
  | invalid {part rest : List UInt8} {text : Text} : part ≠ [] →
      (∀ c, ¬ String.utf8EncodeChar c <+: part ++ rest) →
      part.length = 1 ∨ Extendable part →
      (∀ b ∈ rest.head?, ¬ Extendable (part ++ [b])) →
      Lossy rest text → Lossy (part ++ rest) (replacement :: text)

/-! ## Bytes in a state -/

/-- The byte continues what was read. -/
def Accepts : State → ℕ → Prop
  | .ready, b => b < 0x80 ∨ 0xC2 ≤ b ∧ b ≤ 0xF4
  | .pending _ low high _, b => low ≤ b ∧ b ≤ high

/-- One to three bytes are missing, and some byte is allowed. -/
def Live : State → Prop
  | .ready => True
  | .pending missing low high _ => 1 ≤ missing ∧ missing ≤ 3 ∧ low ≤ high ∧ high ≤ 0xFF

variable {b : ℕ}

theorem lead_one (h : b < 0x80) : lead b = ([Char.ofNat b], .ready) := if_pos h

theorem lead_two (hlow : 0xC2 ≤ b) (hhigh : b ≤ 0xDF) :
    lead b = ([], .pending 1 0x80 0xBF (b % 32)) := by
  rw [lead, if_neg (by omega), if_pos ⟨hlow, hhigh⟩]

theorem lead_three (hlow : 0xE0 ≤ b) (hhigh : b ≤ 0xEF) :
    lead b = ([], .pending 2 (if b = 0xE0 then 0xA0 else 0x80) (if b = 0xED then 0x9F else 0xBF)
      (b % 16)) := by
  rw [lead, if_neg (by omega), if_neg (by omega)]
  by_cases hfirst : b = 0xE0
  · subst hfirst
    rfl
  by_cases hsurrogates : b = 0xED
  · subst hsurrogates
    rfl
  rw [if_neg hfirst, if_neg hsurrogates, if_neg hfirst, if_neg hsurrogates,
    if_pos ⟨by omega, hhigh⟩]

theorem lead_four (hlow : 0xF0 ≤ b) (hhigh : b ≤ 0xF4) :
    lead b = ([], .pending 3 (if b = 0xF0 then 0x90 else 0x80) (if b = 0xF4 then 0x8F else 0xBF)
      (b % 8)) := by
  rw [lead, if_neg (by omega), if_neg (by omega), if_neg (by omega), if_neg (by omega),
    if_neg (by omega)]
  by_cases hfirst : b = 0xF0
  · subst hfirst
    rfl
  by_cases hlast : b = 0xF4
  · subst hlast
    rfl
  rw [if_neg hfirst, if_neg hlast, if_neg hfirst, if_neg hlast, if_pos ⟨by omega, by omega⟩]

theorem lead_invalid (h : ¬ Accepts .ready b) : lead b = ([replacement], .ready) := by
  rw [Accepts, not_or] at h
  rw [lead, if_neg (by omega), if_neg (by omega), if_neg (by omega), if_neg (by omega),
    if_neg (by omega), if_neg (by omega), if_neg (by omega), if_neg (by omega)]

theorem feed_invalid {missing low high bits b : ℕ}
    (h : ¬ Accepts (.pending missing low high bits) b) :
    feed (.pending missing low high bits) b = (replacement :: (lead b).1, (lead b).2) := if_neg h

variable {s : State}

/-- A byte that continues what was read completes a character or leaves fewer missing. -/
theorem feed_of_accepts (hs : Live s) (h : Accepts s b) :
    (∃ c, feed s b = ([c], .ready)) ∨
      ∃ missing low high bits, feed s b = ([], .pending missing low high bits) ∧
        Live (.pending missing low high bits) := by
  cases s with
  | ready =>
    rcases h with h | ⟨hlow, hhigh⟩
    · exact .inl ⟨_, lead_one h⟩
    · right
      rcases Nat.lt_or_ge b 0xE0 with htwo | hthree
      · refine ⟨_, _, _, _, lead_two hlow (by omega), ?_⟩
        simp only [Live]
        omega
      rcases Nat.lt_or_ge b 0xF0 with hthree' | hfour
      · refine ⟨_, _, _, _, lead_three hthree (by omega), ?_⟩
        simp only [Live]
        split_ifs <;> omega
      · refine ⟨_, _, _, _, lead_four hfour hhigh, ?_⟩
        simp only [Live]
        split_ifs <;> omega
  | pending missing low high bits =>
    obtain ⟨hmissing, hmissing', -, -⟩ := hs
    have hrange : low ≤ b ∧ b ≤ high := h
    rw [feed, if_pos hrange]
    split
    · exact .inl ⟨_, rfl⟩
    · refine .inr ⟨_, _, _, _, rfl, ?_⟩
      simp only [Live]
      omega

theorem live_ready : Live .ready := trivial

theorem live_lead (b : ℕ) : Live (lead b).2 := by
  by_cases h : Accepts .ready b
  · rcases feed_of_accepts live_ready h with ⟨c, hfeed⟩ | ⟨_, _, _, _, hfeed, hlive⟩
    · change lead b = _ at hfeed
      rw [hfeed]
      trivial
    · change lead b = _ at hfeed
      rw [hfeed]
      exact hlive
  · rw [lead_invalid h]
    trivial

theorem live_feed (hs : Live s) (b : ℕ) : Live (feed s b).2 := by
  by_cases h : Accepts s b
  · rcases feed_of_accepts hs h with ⟨c, hfeed⟩ | ⟨_, _, _, _, hfeed, hlive⟩
    · rw [hfeed]
      trivial
    · rw [hfeed]
      exact hlive
  · cases s with
    | ready => exact live_lead b
    | pending missing low high bits =>
      rw [feed_invalid h]
      exact live_lead b

/-! ## Reading one character -/

/-- From this state exactly these bytes complete the character. -/
inductive Reads : State → List UInt8 → Char → Prop
  | last {s : State} {b : UInt8} {c : Char} : Accepts s b.toNat →
      feed s b.toNat = ([c], .ready) → Reads s [b] c
  | more {s s' : State} {b : UInt8} {l : List UInt8} {c : Char} : Accepts s b.toNat →
      feed s b.toNat = ([], s') → Reads s' l c → Reads s (b :: l) c

/-- The bytes are read without output. -/
inductive Silent : State → List UInt8 → State → Prop
  | nil (s : State) : Silent s [] s
  | cons {s s' s'' : State} {b : UInt8} {l : List UInt8} : Accepts s b.toNat →
      feed s b.toNat = ([], s') → Silent s' l s'' → Silent s (b :: l) s''

section Reading

variable {s s' : State} {b : UInt8} {l part tail rest : List UInt8} {c : Char}

theorem Reads.decodeFrom_append (h : Reads s l c) (rest : List UInt8) :
    decodeFrom s (l ++ rest) = c :: decodeFrom .ready rest := by
  induction h with
  | last _ hfeed => rw [List.singleton_append, decodeFrom, hfeed, List.singleton_append]
  | more _ hfeed _ ih => rw [List.cons_append, decodeFrom, hfeed, ih, List.nil_append]

theorem Silent.decodeFrom_append (h : Silent s part s') (rest : List UInt8) :
    decodeFrom s (part ++ rest) = decodeFrom s' rest := by
  induction h with
  | nil => rfl
  | cons _ hfeed _ ih => rw [List.cons_append, decodeFrom, hfeed, ih, List.nil_append]

theorem Silent.reads_append (h : Silent s part s') (hl : Reads s' l c) : Reads s (part ++ l) c := by
  induction h with
  | nil => exact hl
  | cons haccepts hfeed _ ih => exact .more haccepts hfeed (ih hl)

theorem Silent.live (h : Silent s part s') (hs : Live s) : Live s' := by
  induction h with
  | nil => exact hs
  | @cons s _ _ b _ _ hfeed _ ih =>
    have hlive := live_feed hs b.toNat
    rw [hfeed] at hlive
    exact ih hlive

theorem pending_of_feed_nil {b : ℕ} (hs : Live s) (haccepts : Accepts s b)
    (h : feed s b = ([], s')) : s' ≠ .ready := by
  rintro rfl
  rcases feed_of_accepts hs haccepts with ⟨c, hfeed⟩ | ⟨_, _, _, _, hfeed, -⟩
  · rw [hfeed] at h
    cases h
  · rw [hfeed] at h
    cases h

theorem Silent.ne_ready (h : Silent s part s') (hs : Live s) (hinside : s ≠ .ready ∨ part ≠ []) :
    s' ≠ .ready := by
  induction h with
  | nil => exact hinside.resolve_right fun hne ↦ hne rfl
  | @cons s _ _ b _ haccepts hfeed _ ih =>
    have hlive := live_feed hs b.toNat
    rw [hfeed] at hlive
    exact ih hlive (.inl (pending_of_feed_nil hs haccepts hfeed))

theorem Reads.exists_silent (h : Reads s (part ++ tail) c) (htail : tail ≠ []) :
    ∃ s', Silent s part s' ∧ Reads s' tail c := by
  induction part generalizing s with
  | nil => exact ⟨s, .nil s, h⟩
  | cons b part ih =>
    rw [List.cons_append] at h
    generalize hwhole : part ++ tail = whole at h
    cases h with
    | last => exact absurd (List.append_eq_nil_iff.mp hwhole).2 htail
    | more haccepts hfeed hrest =>
      rw [← hwhole] at hrest
      obtain ⟨s', hsilent, hreads⟩ := ih hrest
      exact ⟨s', .cons haccepts hfeed hsilent, hreads⟩

/-- Every character that was begun can be completed. -/
theorem exists_reads {missing low high bits : ℕ} (h : Live (.pending missing low high bits)) :
    ∃ l c, Reads (.pending missing low high bits) l c := by
  induction missing generalizing low high bits with
  | zero => exact absurd h.1 (by decide)
  | succ missing ih =>
    obtain ⟨-, hmissing, hrange, hhigh⟩ := h
    have hbyte : (UInt8.ofNat low).toNat = low := by
      rw [UInt8.toNat_ofNat']
      omega
    have haccepts : Accepts (.pending (missing + 1) low high bits) (UInt8.ofNat low).toNat := by
      rw [hbyte]
      exact ⟨Nat.le_refl low, hrange⟩
    have hin : low ≤ (UInt8.ofNat low).toNat ∧ (UInt8.ofNat low).toNat ≤ high := haccepts
    cases missing with
    | zero => exact ⟨_, _, .last haccepts (by rw [feed, if_pos hin, if_pos (Nat.le_refl 1)])⟩
    | succ missing =>
      have hlive : Live (.pending (missing + 1) 0x80 0xBF
          (bits * 64 + (UInt8.ofNat low).toNat % 64)) := by
        simp only [Live]
        omega
      obtain ⟨l, c, hreads⟩ := ih hlive
      refine ⟨_, c, .more haccepts ?_ hreads⟩
      rw [feed, if_pos hin, if_neg (by omega)]
      rfl

theorem feed_pending_one {low high bits b : ℕ} (hlow : low ≤ b) (hhigh : b ≤ high) :
    feed (.pending 1 low high bits) b = ([Char.ofNat (bits * 64 + b % 64)], .ready) := by
  rw [feed, if_pos ⟨hlow, hhigh⟩, if_pos (Nat.le_refl 1)]

theorem feed_pending_more {missing low high bits b : ℕ} (hlow : low ≤ b) (hhigh : b ≤ high) :
    feed (.pending (missing + 2) low high bits) b =
      ([], .pending (missing + 1) 0x80 0xBF (bits * 64 + b % 64)) := by
  rw [feed, if_pos ⟨hlow, hhigh⟩, if_neg (by omega)]
  rfl

theorem reads_pending_one {low high bits : ℕ} : Reads (.pending 1 low high bits) l c ↔
    ∃ b : UInt8, l = [b] ∧ low ≤ b.toNat ∧ b.toNat ≤ high ∧
      c = Char.ofNat (bits * 64 + b.toNat % 64) := by
  constructor
  · intro h
    cases h with
    | @last _ b _ haccepts hfeed =>
      rw [feed_pending_one haccepts.1 haccepts.2] at hfeed
      cases hfeed
      exact ⟨b, rfl, haccepts.1, haccepts.2, rfl⟩
    | more haccepts hfeed =>
      rw [feed_pending_one haccepts.1 haccepts.2] at hfeed
      cases hfeed
  · rintro ⟨b, rfl, hlow, hhigh, rfl⟩
    exact .last ⟨hlow, hhigh⟩ (feed_pending_one hlow hhigh)

theorem reads_pending_more {missing low high bits : ℕ} :
    Reads (.pending (missing + 2) low high bits) l c ↔
      ∃ (b : UInt8) (rest : List UInt8), l = b :: rest ∧ low ≤ b.toNat ∧ b.toNat ≤ high ∧
        Reads (.pending (missing + 1) 0x80 0xBF (bits * 64 + b.toNat % 64)) rest c := by
  constructor
  · intro h
    cases h with
    | last haccepts hfeed =>
      rw [feed_pending_more haccepts.1 haccepts.2] at hfeed
      cases hfeed
    | @more _ _ b rest _ haccepts hfeed hrest =>
      rw [feed_pending_more haccepts.1 haccepts.2] at hfeed
      cases hfeed
      exact ⟨b, rest, rfl, haccepts.1, haccepts.2, hrest⟩
  · rintro ⟨b, rest, rfl, hlow, hhigh, hrest⟩
    exact .more ⟨hlow, hhigh⟩ (feed_pending_more hlow hhigh) hrest

end Reading

/-! ## The encodings -/

theorem toNat_ofNat {n : ℕ} (h : n.isValidChar) : (Char.ofNat n).val.toNat = n := by
  rw [Char.ofNat, dif_pos h]
  rfl

theorem ofNat_eq {n : ℕ} {b : UInt8} (h : n = b.toNat) : UInt8.ofNat n = b := by
  rw [h, UInt8.ofNat_toNat]

theorem toNat_ofNat_of_lt {n : ℕ} (h : n < 256) : (UInt8.ofNat n).toNat = n := by
  rw [UInt8.toNat_ofNat']
  omega

section Encodings

variable {n : ℕ}

theorem encode_one (h : n ≤ 0x7F) : String.utf8EncodeChar (Char.ofNat n) = [UInt8.ofNat n] := by
  have hval := toNat_ofNat (n := n) (.inl (by omega))
  rw [String.utf8EncodeChar, hval, if_pos h]

theorem encode_two (hlow : 0x80 ≤ n) (hhigh : n ≤ 0x7FF) :
    String.utf8EncodeChar (Char.ofNat n) =
      [UInt8.ofNat (n / 64 % 32 + 192), UInt8.ofNat (n % 64 + 128)] := by
  have hval := toNat_ofNat (n := n) (.inl (by omega))
  rw [String.utf8EncodeChar, hval, if_neg (by omega), if_pos hhigh]

theorem encode_three (hlow : 0x800 ≤ n) (hhigh : n ≤ 0xFFFF) (hvalid : n.isValidChar) :
    String.utf8EncodeChar (Char.ofNat n) = [UInt8.ofNat (n / 4096 % 16 + 224),
      UInt8.ofNat (n / 64 % 64 + 128), UInt8.ofNat (n % 64 + 128)] := by
  rw [String.utf8EncodeChar, toNat_ofNat hvalid, if_neg (by omega), if_neg (by omega),
    if_pos hhigh]

theorem encode_four (hlow : 0x10000 ≤ n) (hhigh : n ≤ 0x10FFFF) :
    String.utf8EncodeChar (Char.ofNat n) = [UInt8.ofNat (n / 262144 % 8 + 240),
      UInt8.ofNat (n / 4096 % 64 + 128), UInt8.ofNat (n / 64 % 64 + 128),
      UInt8.ofNat (n % 64 + 128)] := by
  have hval := toNat_ofNat (n := n) (.inr ⟨by omega, by omega⟩)
  rw [String.utf8EncodeChar, hval, if_neg (by omega), if_neg (by omega), if_neg (by omega)]

end Encodings

section Decoding

variable {b b₁ b₂ b₃ : UInt8}

theorem encode_decode_two (hlow : 0xC2 ≤ b.toNat) (hhigh : b.toNat ≤ 0xDF) (hlow₁ : 0x80 ≤ b₁.toNat)
    (hhigh₁ : b₁.toNat ≤ 0xBF) :
    String.utf8EncodeChar (Char.ofNat (b.toNat % 32 * 64 + b₁.toNat % 64)) = [b, b₁] := by
  generalize hn : b.toNat % 32 * 64 + b₁.toNat % 64 = n
  rw [encode_two (by omega) (by omega), ofNat_eq (b := b) (by omega), ofNat_eq (b := b₁) (by omega)]

theorem encode_decode_three (hlow : 0xE0 ≤ b.toNat) (hhigh : b.toNat ≤ 0xEF)
    (hlow₁ : (if b.toNat = 0xE0 then 0xA0 else 0x80) ≤ b₁.toNat)
    (hhigh₁ : b₁.toNat ≤ if b.toNat = 0xED then 0x9F else 0xBF) (hlow₂ : 0x80 ≤ b₂.toNat)
    (hhigh₂ : b₂.toNat ≤ 0xBF) :
    String.utf8EncodeChar (Char.ofNat ((b.toNat % 16 * 64 + b₁.toNat % 64) * 64 +
      b₂.toNat % 64)) = [b, b₁, b₂] := by
  generalize hn : (b.toNat % 16 * 64 + b₁.toNat % 64) * 64 + b₂.toNat % 64 = n
  have hbounds : 0x80 ≤ b₁.toNat ∧ b₁.toNat ≤ 0xBF ∧ 0x800 ≤ n ∧ n ≤ 0xFFFF ∧
      (n < 0xD800 ∨ 0xDFFF < n) := by
    split_ifs at hlow₁ hhigh₁ <;> omega
  obtain ⟨hlow₁', hhigh₁', hleast, hmost, hvalid⟩ := hbounds
  rw [encode_three hleast hmost (hvalid.imp_right fun h ↦ ⟨h, by omega⟩),
    ofNat_eq (b := b) (by omega), ofNat_eq (b := b₁) (by omega), ofNat_eq (b := b₂) (by omega)]

theorem encode_decode_four (hlow : 0xF0 ≤ b.toNat) (hhigh : b.toNat ≤ 0xF4)
    (hlow₁ : (if b.toNat = 0xF0 then 0x90 else 0x80) ≤ b₁.toNat)
    (hhigh₁ : b₁.toNat ≤ if b.toNat = 0xF4 then 0x8F else 0xBF) (hlow₂ : 0x80 ≤ b₂.toNat)
    (hhigh₂ : b₂.toNat ≤ 0xBF) (hlow₃ : 0x80 ≤ b₃.toNat) (hhigh₃ : b₃.toNat ≤ 0xBF) :
    String.utf8EncodeChar (Char.ofNat (((b.toNat % 8 * 64 + b₁.toNat % 64) * 64 +
      b₂.toNat % 64) * 64 + b₃.toNat % 64)) = [b, b₁, b₂, b₃] := by
  generalize hn : ((b.toNat % 8 * 64 + b₁.toNat % 64) * 64 + b₂.toNat % 64) * 64 +
    b₃.toNat % 64 = n
  have hbounds : 0x80 ≤ b₁.toNat ∧ b₁.toNat ≤ 0xBF ∧ 0x10000 ≤ n ∧ n ≤ 0x10FFFF := by
    split_ifs at hlow₁ hhigh₁ <;> omega
  obtain ⟨hlow₁', hhigh₁', hleast, hmost⟩ := hbounds
  rw [encode_four hleast hmost, ofNat_eq (b := b) (by omega), ofNat_eq (b := b₁) (by omega),
    ofNat_eq (b := b₂) (by omega), ofNat_eq (b := b₃) (by omega)]

end Decoding

/-- What the decoder reads as one character is the encoding of that character. -/
theorem Reads.eq_encode {l : List UInt8} {c : Char} (h : Reads .ready l c) :
    l = String.utf8EncodeChar c := by
  cases h with
  | @last _ b _ haccepts hfeed =>
    change lead b.toNat = _ at hfeed
    rcases haccepts with hone | ⟨hlow, hhigh⟩
    · rw [lead_one hone] at hfeed
      cases hfeed
      rw [encode_one (by omega), UInt8.ofNat_toNat]
    rcases Nat.lt_or_ge b.toNat 0xE0 with htwo | hthree
    · rw [lead_two hlow (by omega)] at hfeed
      cases hfeed
    rcases Nat.lt_or_ge b.toNat 0xF0 with hthree' | hfour
    · rw [lead_three hthree (by omega)] at hfeed
      cases hfeed
    · rw [lead_four hfour hhigh] at hfeed
      cases hfeed
  | @more _ s' b l _ haccepts hfeed hrest =>
    change lead b.toNat = _ at hfeed
    rcases haccepts with hone | ⟨hlow, hhigh⟩
    · rw [lead_one hone] at hfeed
      cases hfeed
    rcases Nat.lt_or_ge b.toNat 0xE0 with htwo | hthree
    · rw [lead_two hlow (by omega)] at hfeed
      cases hfeed
      obtain ⟨b₁, rfl, hlow₁, hhigh₁, rfl⟩ := reads_pending_one.mp hrest
      exact (encode_decode_two hlow (by omega) hlow₁ hhigh₁).symm
    rcases Nat.lt_or_ge b.toNat 0xF0 with hthree' | hfour
    · rw [lead_three hthree (by omega)] at hfeed
      cases hfeed
      obtain ⟨b₁, l, rfl, hlow₁, hhigh₁, hrest⟩ := reads_pending_more.mp hrest
      obtain ⟨b₂, rfl, hlow₂, hhigh₂, rfl⟩ := reads_pending_one.mp hrest
      exact (encode_decode_three hthree (by omega) hlow₁ hhigh₁ hlow₂ hhigh₂).symm
    · rw [lead_four hfour hhigh] at hfeed
      cases hfeed
      obtain ⟨b₁, l, rfl, hlow₁, hhigh₁, hrest⟩ := reads_pending_more.mp hrest
      obtain ⟨b₂, l, rfl, hlow₂, hhigh₂, hrest⟩ := reads_pending_more.mp hrest
      obtain ⟨b₃, rfl, hlow₃, hhigh₃, rfl⟩ := reads_pending_one.mp hrest
      exact (encode_decode_four hfour hhigh hlow₁ hhigh₁ hlow₂ hhigh₂ hlow₃ hhigh₃).symm

/-- The decoder reads every encoding as its character. -/
theorem reads_encode (c : Char) : Reads .ready (String.utf8EncodeChar c) c := by
  obtain ⟨n, hn, hvalid⟩ : ∃ n : ℕ, c = Char.ofNat n ∧ n.isValidChar :=
    ⟨c.toNat, (Char.ofNat_toNat c).symm, c.valid⟩
  subst hn
  have hmost : n ≤ 0x10FFFF := by
    rcases hvalid with h | ⟨-, h⟩ <;> omega
  rcases Nat.lt_or_ge n 0x80 with hone | htwo
  · have hbyte := toNat_ofNat_of_lt (show n < 256 by omega)
    rw [encode_one (by omega)]
    refine .last (.inl (by omega)) ?_
    change lead _ = _
    rw [hbyte, lead_one hone]
  rcases Nat.lt_or_ge n 0x800 with htwo' | hthree
  · have hbyte := toNat_ofNat_of_lt (show n / 64 % 32 + 192 < 256 by omega)
    have hbyte₁ := toNat_ofNat_of_lt (show n % 64 + 128 < 256 by omega)
    rw [encode_two htwo (by omega)]
    refine .more (.inr (by omega)) (lead_two (by omega) (by omega)) ?_
    refine reads_pending_one.mpr ⟨_, rfl, by omega, by omega, congrArg Char.ofNat ?_⟩
    omega
  rcases Nat.lt_or_ge n 0x10000 with hthree' | hfour
  · have hbyte := toNat_ofNat_of_lt (show n / 4096 % 16 + 224 < 256 by omega)
    have hbyte₁ := toNat_ofNat_of_lt (show n / 64 % 64 + 128 < 256 by omega)
    have hbyte₂ := toNat_ofNat_of_lt (show n % 64 + 128 < 256 by omega)
    rw [encode_three hthree (by omega) hvalid]
    refine .more (.inr (by omega)) (lead_three (by omega) (by omega)) ?_
    refine reads_pending_more.mpr ⟨_, _, rfl, ?_, ?_, ?_⟩
    · split_ifs <;> omega
    · rcases hvalid with h | h <;> split_ifs <;> omega
    refine reads_pending_one.mpr ⟨_, rfl, by omega, by omega, congrArg Char.ofNat ?_⟩
    omega
  · have hbyte := toNat_ofNat_of_lt (show n / 262144 % 8 + 240 < 256 by omega)
    have hbyte₁ := toNat_ofNat_of_lt (show n / 4096 % 64 + 128 < 256 by omega)
    have hbyte₂ := toNat_ofNat_of_lt (show n / 64 % 64 + 128 < 256 by omega)
    have hbyte₃ := toNat_ofNat_of_lt (show n % 64 + 128 < 256 by omega)
    rw [encode_four hfour hmost]
    refine .more (.inr (by omega)) (lead_four (by omega) (by omega)) ?_
    refine reads_pending_more.mpr ⟨_, _, rfl, ?_, ?_, ?_⟩
    · split_ifs <;> omega
    · split_ifs <;> omega
    refine reads_pending_more.mpr ⟨_, _, rfl, by omega, by omega, ?_⟩
    refine reads_pending_one.mpr ⟨_, rfl, by omega, by omega, congrArg Char.ofNat ?_⟩
    omega

theorem extendable_of_reads {part l : List UInt8} {c : Char} (h : Reads .ready (part ++ l) c) :
    Extendable part := ⟨c, l, h.eq_encode⟩

/-- A byte that continues a state leads on to some encoding. -/
theorem Silent.extendable {part : List UInt8} (h : Silent .ready part s) {b : UInt8}
    (hb : Accepts s b.toNat) : Extendable (part ++ [b]) := by
  rcases feed_of_accepts (h.live live_ready) hb with ⟨c, hfeed⟩ | ⟨_, _, _, _, hfeed, hlive⟩
  · have hwhole := h.reads_append (.last hb hfeed)
    exact ⟨c, [], by rw [List.append_nil, hwhole.eq_encode]⟩
  · obtain ⟨l, c, hreads⟩ := exists_reads hlive
    have hwhole := h.reads_append (.more hb hfeed hreads)
    rw [List.append_cons] at hwhole
    exact extendable_of_reads hwhole

/-- A maximal invalid part gives one replacement character. -/
theorem decodeFrom_invalid {part rest : List UInt8} (hne : part ≠ [])
    (hnone : ∀ c, ¬ String.utf8EncodeChar c <+: part ++ rest)
    (hpart : part.length = 1 ∨ Extendable part)
    (hmaximal : ∀ b ∈ rest.head?, ¬ Extendable (part ++ [b])) :
    decodeFrom .ready (part ++ rest) = replacement :: decodeFrom .ready rest := by
  by_cases hextendable : Extendable part
  · obtain ⟨c, tail, hencode⟩ := hextendable
    have htail : tail ≠ [] := by
      rintro rfl
      rw [List.append_nil] at hencode
      exact hnone c (hencode ▸ List.prefix_append _ _)
    have hreads := reads_encode c
    rw [← hencode] at hreads
    obtain ⟨s, hsilent, -⟩ := hreads.exists_silent htail
    rw [hsilent.decodeFrom_append]
    cases hstate : s with
    | ready => exact absurd hstate (hsilent.ne_ready live_ready (.inr hne))
    | pending missing low high bits =>
      cases rest with
      | nil => rfl
      | cons b rest =>
        have hrefused : ¬ Accepts (.pending missing low high bits) b.toNat := fun hb ↦
          hmaximal b rfl (hsilent.extendable (hstate ▸ hb))
        rw [decodeFrom, feed_invalid hrefused, decodeFrom]
        rfl
  · obtain ⟨b, rfl⟩ := List.length_eq_one_iff.mp (hpart.resolve_right hextendable)
    have hrefused : ¬ Accepts .ready b.toNat := fun hb ↦
      hextendable (Silent.extendable (.nil .ready) hb)
    rw [List.singleton_append, decodeFrom]
    change (lead b.toNat).1 ++ decodeFrom (lead b.toNat).2 rest = _
    rw [lead_invalid hrefused, List.singleton_append]

/-! ## The decoder meets the description -/

theorem Lossy.fromUtf8Lossy_eq {bytes : List UInt8} {text : Text} (h : Lossy bytes text) :
    fromUtf8Lossy bytes = text := by
  induction h with
  | nil => rfl
  | char c _ ih => rw [fromUtf8Lossy, (reads_encode c).decodeFrom_append, ← fromUtf8Lossy, ih]
  | invalid hne hnone hpart hmaximal _ ih =>
    rw [fromUtf8Lossy, decodeFrom_invalid hne hnone hpart hmaximal, ← fromUtf8Lossy, ih]

theorem exists_maximal_part {part : List UInt8} (rest : List UInt8) (hne : part ≠ [])
    (hpart : part.length = 1 ∨ Extendable part) :
    ∃ part' rest', part ++ rest = part' ++ rest' ∧ part' ≠ [] ∧
      (part'.length = 1 ∨ Extendable part') ∧ ∀ b ∈ rest'.head?, ¬ Extendable (part' ++ [b]) := by
  induction rest generalizing part with
  | nil => exact ⟨part, [], rfl, hne, hpart, fun b hb ↦ by cases hb⟩
  | cons b rest ih =>
    by_cases hmore : Extendable (part ++ [b])
    · obtain ⟨part', rest', heq, hfound⟩ := ih (by simp) (.inr hmore)
      exact ⟨part', rest', by rw [← heq, List.append_assoc, List.singleton_append], hfound⟩
    · refine ⟨part, b :: rest, rfl, hne, hpart, fun d hd ↦ ?_⟩
      rwa [← Option.some.inj hd]

theorem exists_lossy (bytes : List UInt8) : ∃ text, Lossy bytes text := by
  induction hlength : bytes.length using Nat.strong_induction_on generalizing bytes with
  | _ n ih =>
    cases bytes with
    | nil => exact ⟨[], .nil⟩
    | cons b bytes =>
      by_cases hchar : ∃ c, String.utf8EncodeChar c <+: b :: bytes
      · obtain ⟨c, rest, hrest⟩ := hchar
        have hpos := List.length_pos_iff.mpr (String.utf8EncodeChar_ne_nil (c := c))
        have hshorter := congrArg List.length hrest
        rw [List.length_append, hlength] at hshorter
        obtain ⟨text, htext⟩ := ih rest.length (by omega) rest rfl
        rw [← hrest]
        exact ⟨_, .char c htext⟩
      · obtain ⟨part, rest, hwhole, hne, hpart, hmaximal⟩ :=
          exists_maximal_part bytes (List.cons_ne_nil b []) (.inl rfl)
        rw [List.singleton_append] at hwhole
        have hpos := List.length_pos_iff.mpr hne
        have hshorter := congrArg List.length hwhole
        rw [List.length_append, hlength] at hshorter
        obtain ⟨text, htext⟩ := ih rest.length (by omega) rest rfl
        rw [hwhole] at hchar ⊢
        exact ⟨_, .invalid hne (not_exists.mp hchar) hpart hmaximal htext⟩

theorem lossy_fromUtf8Lossy (bytes : List UInt8) : Lossy bytes (fromUtf8Lossy bytes) := by
  obtain ⟨text, h⟩ := exists_lossy bytes
  rwa [h.fromUtf8Lossy_eq]

/-! ## Decoding a prefix -/

/-- What is written for these bytes, and the state behind them. -/
def decodePart (s : State) : List UInt8 → Text × State
  | [] => ([], s)
  | b :: bytes =>
    ((feed s b.toNat).1 ++ (decodePart (feed s b.toNat).2 bytes).1,
      (decodePart (feed s b.toNat).2 bytes).2)

theorem decodeFrom_append (s : State) (front rest : List UInt8) :
    decodeFrom s (front ++ rest) =
      (decodePart s front).1 ++ decodeFrom (decodePart s front).2 rest := by
  induction front generalizing s with
  | nil => rfl
  | cons b front ih =>
    rw [List.cons_append, decodeFrom, ih, decodePart]
    simp only [List.append_assoc]

/-- The bytes of a character that was begun. -/
def heldAtMost : State → ℕ
  | .ready => 0
  | .pending missing _ _ _ => 4 - missing

theorem heldAtMost_le (hs : Live s) : heldAtMost s ≤ 3 := by
  cases s with
  | ready => exact Nat.zero_le 3
  | pending missing low high bits =>
    have hmissing : 1 ≤ missing := hs.1
    simp only [heldAtMost]
    omega

/-- No character takes more than four bytes. -/
theorem feed_bytes (hs : Live s) (b : ℕ) :
    heldAtMost s + 1 ≤ 4 * (feed s b).1.length + heldAtMost (feed s b).2 := by
  have hheld := heldAtMost_le hs
  by_cases haccepts : Accepts s b
  · rcases feed_of_accepts hs haccepts with ⟨c, hfeed⟩ | ⟨missing, _, _, _, hfeed, hlive⟩
    · rw [hfeed]
      simp only [List.length_singleton]
      omega
    · cases s with
      | ready =>
        have hmissing : missing ≤ 3 := hlive.2.1
        rw [hfeed]
        simp only [heldAtMost]
        omega
      | pending before low high bits =>
        have hmissing : 1 ≤ before ∧ before ≤ 3 := ⟨hs.1, hs.2.1⟩
        have hrange : low ≤ b ∧ b ≤ high := haccepts
        rw [feed, if_pos hrange]
        split
        · simp only [List.length_singleton, heldAtMost]
          omega
        · simp only [List.length_nil, heldAtMost]
          omega
  · cases s with
    | ready =>
      change _ ≤ 4 * (lead b).1.length + heldAtMost (lead b).2
      rw [lead_invalid haccepts]
      simp only [List.length_singleton, heldAtMost]
      omega
    | pending before low high bits =>
      rw [feed_invalid haccepts, List.length_cons]
      omega

theorem decodePart_bytes (hs : Live s) (bytes : List UInt8) :
    heldAtMost s + bytes.length ≤
      4 * (decodePart s bytes).1.length + heldAtMost (decodePart s bytes).2 ∧
        Live (decodePart s bytes).2 := by
  induction bytes generalizing s with
  | nil => exact ⟨by simp [decodePart], hs⟩
  | cons b bytes ih =>
    obtain ⟨hrest, hlive⟩ := ih (live_feed hs b.toNat)
    have hstep := feed_bytes hs b.toNat
    refine ⟨?_, hlive⟩
    rw [decodePart, List.length_cons]
    simp only [List.length_append]
    omega

end Utf8
