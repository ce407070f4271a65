import Reqx.Library.Utf8Lossy
import Reqx.Core.Headers

/-!
# Excerpts of error bodies

`truncate_body` decodes a prefix of a body only. The prefix is long enough that more
characters are written for it than an excerpt shows, whatever its last bytes are.
-/

namespace Reqx

/-- What an excerpt of a whole text is. -/
def excerptOf (text : Text) : Text :=
  if text.length ≤ maxErrorBodyLen then text
  else text.take maxErrorBodyLen ++ "...(truncated)".toList

theorem excerptOf_append {front : Text} (h : maxErrorBodyLen < front.length) (rest : Text) :
    excerptOf (front ++ rest) = front.take maxErrorBodyLen ++ "...(truncated)".toList := by
  have hlong : ¬ (front ++ rest).length ≤ maxErrorBodyLen := by
    rw [List.length_append]
    omega
  rw [excerptOf, if_neg hlong, List.take_append_of_le_length h.le]

theorem truncateBody_eq_excerptOf (body : Bytes) :
    truncateBody body =
      excerptOf (Utf8.fromUtf8Lossy (body.take ((maxErrorBodyLen + 1) * 4))) := by
  unfold truncateBody excerptOf
  dsimp only
  split
  next hlong => rw [if_neg (Nat.not_le.mpr hlong)]
  next hshort => rw [if_pos (Nat.not_lt.mp hshort)]

/-- A full prefix gives more characters than an excerpt has. -/
theorem lt_length_decodePart {front : Bytes} (h : front.length = (maxErrorBodyLen + 1) * 4) :
    maxErrorBodyLen < (Utf8.decodePart .ready front).1.length := by
  obtain ⟨hbytes, hlive⟩ := Utf8.decodePart_bytes Utf8.live_ready front
  have hheld := Utf8.heldAtMost_le hlive
  have hready : Utf8.heldAtMost .ready = 0 := rfl
  rw [h, hready] at hbytes
  omega

/-- An excerpt is the one of the whole text, in which every maximal invalid part of the body is one
replacement character. -/
theorem truncate_body_decodes_whole (body : Bytes) :
    ∃ text, Utf8.Lossy body text ∧ (∀ text', Utf8.Lossy body text' → text' = text) ∧
      truncateBody body = if text.length ≤ maxErrorBodyLen then text
        else text.take maxErrorBodyLen ++ "...(truncated)".toList := by
  refine ⟨Utf8.fromUtf8Lossy body, Utf8.lossy_fromUtf8Lossy body,
    fun text' h ↦ h.fromUtf8Lossy_eq.symm, ?_⟩
  rw [truncateBody_eq_excerptOf, ← excerptOf]
  rcases Nat.le_total body.length ((maxErrorBodyLen + 1) * 4) with hshort | hlong
  · rw [List.take_of_length_le hshort]
  · -- Both texts begin with what the prefix gives, which is longer than the excerpt.
    have hfront : (body.take ((maxErrorBodyLen + 1) * 4)).length = (maxErrorBodyLen + 1) * 4 := by
      rw [List.length_take, Nat.min_eq_left hlong]
    have hlength := lt_length_decodePart hfront
    have hprefix := Utf8.decodeFrom_append .ready (body.take ((maxErrorBodyLen + 1) * 4)) []
    have hwhole := Utf8.decodeFrom_append .ready (body.take ((maxErrorBodyLen + 1) * 4))
      (body.drop ((maxErrorBodyLen + 1) * 4))
    rw [List.append_nil] at hprefix
    rw [List.take_append_drop] at hwhole
    rw [Utf8.fromUtf8Lossy, Utf8.fromUtf8Lossy, hprefix, hwhole, excerptOf_append hlength,
      excerptOf_append hlength]

end Reqx
