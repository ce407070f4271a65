import Reqx.Driver.Client
import Reqx.Library.ScriptedReader
import Reqx.Upload.Options

/-!
# Reading the source

The blocking and the async driver take one chunk from a reader; the blocking
`read_to_end` repeats an interrupted read itself, the async one returns it to a
loop that starts it again with the buffer it has.
-/

namespace Reqx.Upload

open ScriptedReader

open Driver (Runtime)

abbrev SourceReader := ScriptedReader UInt8 IoError

/-- No call fails for good. -/
def SourceReader.Faultless (r : SourceReader) : Prop :=
  ∀ e, .error e ∈ r.script → e.kind = .interrupted

/-! ## One chunk -/

/-- A reader limited by `take`, and the buffer it fills. -/
structure LimitedRead where
  limit : ℕ
  reader : SourceReader
  buffer : Bytes

def readToEnd (rt : Runtime) (t : LimitedRead) : Except IoError Unit × LimitedRead :=
  if t.limit = 0 then (.ok (), t)
  else
    match h : t.reader.read t.limit with
    | (.ok [], reader) => (.ok (), { t with reader := reader })
    | (.ok (byte :: bytes), reader) =>
      have := (script_suffix_of_read h).length_le
      readToEnd rt ⟨t.limit - (bytes.length + 1), reader, t.buffer ++ byte :: bytes⟩
    | (.error error, reader) =>
      have := script_length_lt_of_read_error h
      -- The reader of std goes on after an interrupted read, tokio's does not.
      if error.kind = .interrupted ∧ rt = .blocking then readToEnd rt { t with reader := reader }
      else (.error error, { t with reader := reader })
termination_by t.limit + t.reader.script.length

namespace LimitedRead

/-- The chunk this read is about to return, if nothing fails. -/
def chunk (t : LimitedRead) : Bytes := t.buffer ++ t.reader.source.take t.limit

def rest (t : LimitedRead) : Bytes := t.reader.source.drop t.limit

theorem received {t : LimitedRead} {reader : SourceReader} {bytes : Bytes}
    (h : t.reader.read t.limit = (.ok bytes, reader)) (hlimit : t.limit ≠ 0) :
    (LimitedRead.mk (t.limit - bytes.length) reader (t.buffer ++ bytes)).chunk = t.chunk ∧
      (LimitedRead.mk (t.limit - bytes.length) reader (t.buffer ++ bytes)).rest = t.rest := by
  obtain ⟨n, hn, hle, rfl, hrest⟩ := read_ok h (Nat.pos_of_ne_zero hlimit)
  simp only [chunk, rest, hrest, List.length_take]
  rcases le_or_gt n t.reader.source.length with hall | hshort
  · rw [min_eq_left hall, List.append_assoc, List.drop_drop, Nat.add_sub_cancel' hle]
    refine ⟨congrArg _ ?_, rfl⟩
    rw [← List.take_add, Nat.add_sub_cancel' hle]
  · rw [List.drop_of_length_le hshort.le, List.take_nil, List.drop_nil, List.append_nil,
      List.take_of_length_le hshort.le, List.take_of_length_le (by omega),
      List.drop_of_length_le (by omega)]
    exact ⟨rfl, rfl⟩

end LimitedRead

/-- What `read_to_end` keeps, and that it stops at the end of the chunk or of the source. -/
theorem readToEnd_spec (rt : Runtime) (t : LimitedRead) :
    (readToEnd rt t).2.chunk = t.chunk ∧ (readToEnd rt t).2.rest = t.rest ∧
      ((readToEnd rt t).1 = .ok () →
        (readToEnd rt t).2.buffer = t.chunk ∧ (readToEnd rt t).2.reader.source = t.rest) := by
  fun_induction readToEnd rt t with
  | case1 t hlimit => simp [LimitedRead.chunk, LimitedRead.rest, hlimit]
  | case2 t hlimit reader h =>
    obtain ⟨hsource, hsource'⟩ :=
      source_eq_nil_of_read h (Nat.pos_of_ne_zero hlimit)
    simp [LimitedRead.chunk, LimitedRead.rest, hsource, hsource']
  | case3 t hlimit byte bytes reader h _ ih =>
    obtain ⟨hchunk, hrest⟩ := LimitedRead.received h hlimit
    rw [List.length_cons] at hchunk hrest
    rwa [hchunk, hrest] at ih
  | case4 t hlimit error reader h _ _ ih =>
    have hsource := (read_error h).1
    simpa only [LimitedRead.chunk, LimitedRead.rest, hsource] using ih
  | case5 t hlimit error reader h _ _ =>
    have hsource := (read_error h).1
    refine ⟨?_, ?_, nofun⟩ <;> simp only [LimitedRead.chunk, LimitedRead.rest, hsource]

theorem readToEnd_script (rt : Runtime) (t : LimitedRead) :
    (readToEnd rt t).2.reader.script <:+ t.reader.script ∧
      ∀ error, (readToEnd rt t).1 = .error error →
        .error error :: (readToEnd rt t).2.reader.script <:+ t.reader.script ∧
          ¬(error.kind = .interrupted ∧ rt = .blocking) := by
  fun_induction readToEnd rt t with
  | case1 t hlimit => exact ⟨List.suffix_rfl, nofun⟩
  | case2 t hlimit reader h => exact ⟨script_suffix_of_read h, nofun⟩
  | case3 t hlimit byte bytes reader h _ ih =>
    have hscript := script_suffix_of_read h
    exact ⟨ih.1.trans hscript, fun e he ↦ ⟨(ih.2 e he).1.trans hscript, (ih.2 e he).2⟩⟩
  | case4 t hlimit error reader h _ _ ih =>
    have hscript := script_suffix_of_read h
    exact ⟨ih.1.trans hscript, fun e he ↦ ⟨(ih.2 e he).1.trans hscript, (ih.2 e he).2⟩⟩
  | case5 t hlimit error reader h _ hstop =>
    refine ⟨script_suffix_of_read h, ?_⟩
    rintro e ⟨⟩
    exact ⟨(read_error h).2 ▸ List.suffix_rfl, hstop⟩

variable {error : IoError}

theorem script_length_lt_of_readToEnd_error {rt : Runtime} {t t' : LimitedRead}
    (h : readToEnd rt t = (.error error, t')) :
    t'.reader.script.length < t.reader.script.length := by
  have hscript := ((readToEnd_script rt t).2 error (by rw [h])).1.length_le
  rw [h, List.length_cons] at hscript
  exact hscript

/-- The loop of `read_chunk_async`. -/
def readChunkAsync (t : LimitedRead) : Except IoError Bytes × SourceReader :=
  match h : readToEnd .async t with
  | (.ok (), t') => (.ok t'.buffer, t'.reader)
  | (.error error, t') =>
    have := script_length_lt_of_readToEnd_error h
    if error.kind = .interrupted then readChunkAsync t' else (.error error, t'.reader)
termination_by t.reader.script.length

def readChunk (rt : Runtime) (reader : SourceReader) (partSize : ℕ) :
    Except IoError Bytes × SourceReader :=
  match rt with
  | .blocking =>
    match readToEnd .blocking ⟨partSize, reader, []⟩ with
    | (.ok (), t) => (.ok t.buffer, t.reader)
    | (.error error, t) => (.error error, t.reader)
  | .async => readChunkAsync ⟨partSize, reader, []⟩

theorem readChunkAsync_ok {t : LimitedRead} {chunk : Bytes} {reader : SourceReader}
    (h : readChunkAsync t = (.ok chunk, reader)) :
    chunk = t.chunk ∧ reader.source = t.rest ∧ reader.script <:+ t.reader.script := by
  fun_induction readChunkAsync t with
  | case1 t t' hread =>
    obtain ⟨-, -, hok⟩ := readToEnd_spec .async t
    have hscript := (readToEnd_script .async t).1
    rw [hread] at hok hscript
    cases h
    exact ⟨(hok rfl).1, (hok rfl).2, hscript⟩
  | case2 t error t' hread _ _ ih =>
    obtain ⟨hchunk, hrest, -⟩ := readToEnd_spec .async t
    have hscript := (readToEnd_script .async t).1
    rw [hread] at hchunk hrest hscript
    obtain ⟨hc, hr, hs⟩ := ih h
    exact ⟨hc.trans hchunk, hr.trans hrest, hs.trans hscript⟩
  | case3 t error t' hread _ _ => cases h

theorem readChunkAsync_error {t : LimitedRead} {reader : SourceReader}
    (h : readChunkAsync t = (.error error, reader)) :
    .error error ∈ t.reader.script ∧ error.kind ≠ .interrupted := by
  fun_induction readChunkAsync t with
  | case1 t t' hread => cases h
  | case2 t error' t' hread _ _ ih =>
    have hscript := (readToEnd_script .async t).1
    rw [hread] at hscript
    exact ⟨hscript.mem (ih h).1, (ih h).2⟩
  | case3 t error' t' hread _ hkind =>
    have hscript := ((readToEnd_script .async t).2 error' (by rw [hread])).1
    cases h
    exact ⟨hscript.mem List.mem_cons_self, hkind⟩

/-! ## Both drivers -/

variable {rt : Runtime} {reader reader' : SourceReader} {partSize : ℕ}

theorem readChunk_ok {chunk : Bytes} (h : readChunk rt reader partSize = (.ok chunk, reader')) :
    chunk = reader.source.take partSize ∧ reader'.source = reader.source.drop partSize ∧
      reader'.script <:+ reader.script := by
  cases rt with
  | async => exact readChunkAsync_ok h
  | blocking =>
    obtain ⟨-, -, hok⟩ := readToEnd_spec .blocking ⟨partSize, reader, []⟩
    have hscript := (readToEnd_script .blocking ⟨partSize, reader, []⟩).1
    simp only [readChunk] at h
    split at h
    · next t heq =>
      rw [heq] at hok hscript
      cases h
      exact ⟨(hok rfl).1, (hok rfl).2, hscript⟩
    · cases h

theorem readChunk_error (h : readChunk rt reader partSize = (.error error, reader')) :
    .error error ∈ reader.script ∧ error.kind ≠ .interrupted := by
  cases rt with
  | async => exact readChunkAsync_error h
  | blocking =>
    have hscript := (readToEnd_script .blocking ⟨partSize, reader, []⟩).2
    simp only [readChunk] at h
    split at h
    · cases h
    · next error' t heq =>
      cases h
      obtain ⟨hmem, hkind⟩ := hscript error (by rw [heq])
      exact ⟨hmem.mem List.mem_cons_self, fun hint ↦ hkind ⟨hint, rfl⟩⟩

theorem SourceReader.Faultless.readChunk (hreader : reader.Faultless) (rt : Runtime)
    (partSize : ℕ) :
    ∃ reader', Upload.readChunk rt reader partSize = (.ok (reader.source.take partSize), reader') ∧
      reader'.source = reader.source.drop partSize ∧ reader'.Faultless := by
  rcases hread : Upload.readChunk rt reader partSize with ⟨result, reader'⟩
  cases result with
  | error error =>
    obtain ⟨hmem, hkind⟩ := readChunk_error hread
    exact absurd (hreader error hmem) hkind
  | ok chunk =>
    obtain ⟨rfl, hrest, hscript⟩ := readChunk_ok hread
    exact ⟨reader', rfl, hrest, fun e he ↦ hreader e (hscript.mem he)⟩

end Reqx.Upload
