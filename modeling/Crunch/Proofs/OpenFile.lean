import Crunch.OpenFile
import Crunch.Proofs.Utf8

/-!
# Crunch.Proofs.OpenFile

Files behind their buffers.

* `Text.lines`: the lines of a text. `Text.lines_of_ne` and `Text.lines_cut` cut them off one by one.
* `Reader.Ahead`, `Reader.line_of_ahead`: what a reader has not given yet, of which it gives the next line.
* `Writer.Holds`: what a file holds once its buffer has been sent. `Writer.write_holds` appends to it, and
  `Writer.flush_holds` brings it to the disk.
* `OpenFile.Stands`: an open file at a stage. `OpenFile.open_write` and the like start it; `OpenFile.Stands.flush`,
  `OpenFile.Stands.close` and `OpenFile.Stands.abandon` are the three ways in which writing ends.
-/

namespace Crunch

/-! ## Lines -/

namespace Text

/-- The lines of a text. A line feed ends a line, and one carriage return in front of it belongs to the end.
What stands after the last line feed is a line too, unless it is empty. -/
def lines : List Char → List (List Char)
  | [] => []
  | '\n' :: cs => [] :: lines cs
  | '\r' :: '\n' :: cs => [] :: lines cs
  | c :: cs =>
    match lines cs with
    | [] => [[c]]
    | l :: ls => (c :: l) :: ls

/-- The first line of a text with its end, and what follows. -/
def cut : List Char → List Char × List Char
  | [] => ([], [])
  | c :: cs => if c = '\n' then ([c], cs) else (c :: (cut cs).1, (cut cs).2)

@[simp] theorem cut_append (cs : List Char) : (cut cs).1 ++ (cut cs).2 = cs := by
  induction cs with
  | nil => rfl
  | cons c cs ih =>
    rw [cut]
    split
    · rfl
    · rw [List.cons_append, ih]

theorem cut_nonempty {cs : List Char} (h : cs ≠ []) : (cut cs).1 ≠ [] := by
  cases cs with
  | nil => exact absurd rfl h
  | cons c cs =>
    rw [cut]
    split <;> exact List.cons_ne_nil _ _

theorem lineFeed_of_cut {cs : List Char} (h : (cut cs).1 = ['\n']) : ∃ rest, cs = '\n' :: rest := by
  cases cs with
  | nil => cases h
  | cons c cs =>
    rw [cut] at h
    split at h
    · rename_i hc
      exact ⟨cs, by rw [hc]⟩
    · rename_i hc
      exact absurd (List.cons.inj h).1 hc

/-- The end of a line does not reach past its last two characters. -/
theorem withoutLineEnd_cons {c : Char} {l : List Char} (hl : l ≠ []) (h : c ≠ '\r' ∨ l ≠ ['\n']) :
    withoutLineEnd (c :: l) = c :: withoutLineEnd l := by
  obtain ⟨r, rfl⟩ : ∃ r : List Char, l = r.reverse := ⟨l.reverse, l.reverse_reverse.symm⟩
  simp only [withoutLineEnd, List.reverse_cons, List.reverse_reverse]
  match r, hl, h with
  | [x], _, h =>
    by_cases hx : x = '\n'
    · subst hx
      have hc : c ≠ '\r' := h.resolve_right (· rfl)
      simp [hc]
    · simp [hx]
  | x :: y :: r, _, _ =>
    by_cases hx : x = '\n'
    · subst hx
      by_cases hy : y = '\r'
      · simp [hy]
      · simp [hy]
    · simp [hx]

theorem lines_of_ne {cs : List Char} (h : cs ≠ []) : lines cs = withoutLineEnd (cut cs).1 :: lines (cut cs).2 := by
  fun_induction lines cs with
  | case1 => exact absurd rfl h
  | case2 cs ih => rfl
  | case3 cs ih => rfl
  | case4 c cs hlf hcr hnil ih =>
    have hcs : cs = [] := Decidable.byContradiction fun hcs => by
      rw [ih hcs] at hnil
      cases hnil
    have hc : c ≠ '\n' := hlf
    subst hcs
    simp [cut, withoutLineEnd, lines, hc]
  | case5 c cs hlf hcr l ls hl ih =>
    have hcs : cs ≠ [] := by
      rintro rfl
      cases hl
    have hend : c ≠ '\r' ∨ (cut cs).1 ≠ ['\n'] :=
      Decidable.or_iff_not_imp_left.mpr fun hc hcut => by
        obtain ⟨rest, rfl⟩ := lineFeed_of_cut hcut
        exact hcr rest (Decidable.not_not.mp hc) rfl
    obtain ⟨rfl, rfl⟩ := List.cons.inj (hl.symm.trans (ih hcs))
    rw [cut, if_neg hlf, withoutLineEnd_cons (cut_nonempty hcs) hend]

theorem lines_cut (cs : List Char) : lines (cut cs).2 = (lines cs).tail := by
  by_cases h : cs = []
  · rw [h]
    rfl
  · rw [lines_of_ne h, List.tail_cons]

end Text

/-! ## Reading -/

theorem splitLine_end (bytes : List UInt8) : splitLine (lineFeed :: bytes) = ([lineFeed], bytes) := rfl

theorem splitLine_append {bytes : List UInt8} (h : ∀ b ∈ bytes, b ≠ lineFeed) (rest : List UInt8) :
    splitLine (bytes ++ rest) = (bytes ++ (splitLine rest).1, (splitLine rest).2) := by
  have hall : ∀ b ∈ bytes, (decide (b ≠ lineFeed)) = true := fun b hb => decide_eq_true (h b hb)
  simp only [splitLine, List.takeWhile_append_of_pos hall, List.dropWhile_append_of_pos hall]
  cases rest.dropWhile (· ≠ lineFeed) with
  | nil => rfl
  | cons b rest => simp

open Utf8 in
theorem splitLine_spell (cs : List Char) :
    splitLine (spell cs) = (spell (Text.cut cs).1, spell (Text.cut cs).2) := by
  induction cs with
  | nil => rfl
  | cons c cs ih =>
    rw [Text.cut, spell_cons]
    split
    · rename_i hc
      subst hc
      exact splitLine_end (spell cs)
    · rename_i hc
      rw [splitLine_append (notMem_char hc), ih]
      rfl

theorem lineText_spell (cs : List Char) : lineText (Utf8.spell cs) = .ok (String.ofList (withoutLineEnd cs)) := by
  rw [lineText, Utf8.decode_spell]
  simp only [String.toList_ofList]

namespace Reader

/-- What is left of a text that a file holds, for a reader of the file. -/
def Ahead (r : Reader) (d : Disk) (rest : List Char) : Prop :=
  ∃ bytes, d.node? r.path = some (.file bytes) ∧ r.buffer ++ bytes.drop r.offset = Utf8.spell rest

/-- So many bytes are read ahead that they reach to the end of the line. -/
theorem le_blocks (n : Nat) : n ≤ (n + blockSize - 1) / blockSize * blockSize := by
  unfold blockSize
  omega

theorem drop_ahead {buffer ahead line rest : List UInt8} {k : Nat} (h : buffer ++ ahead = line ++ rest)
    (hk : line.length ≤ (buffer ++ ahead.take k).length) :
    (buffer ++ ahead.take k).drop line.length ++ ahead.drop k = rest := by
  rw [← List.drop_append_of_le_length hk, List.append_assoc, List.take_append_drop, h, List.drop_left]

/-- The next line is read, and nothing at the end. -/
theorem line_of_ahead {r : Reader} {d : Disk} {rest : List Char} (h : r.Ahead d rest) :
    ∃ r', r.line d = (.ok ((Text.lines rest).head?.map String.ofList), r') ∧ r'.path = r.path ∧
      r'.Ahead d (Text.cut rest).2 := by
  obtain ⟨bytes, hnode, hrest⟩ := h
  have hcontent : d.content r.path = .ok bytes := by rw [Disk.content, hnode]
  have hsplit : r.buffer ++ bytes.drop r.offset = Utf8.spell (Text.cut rest).1 ++ Utf8.spell (Text.cut rest).2 := by
    rw [hrest, ← Utf8.spell_append, Text.cut_append]
  simp only [line, hcontent, hrest, splitLine_spell]
  generalize hread : min (bytes.drop r.offset).length _ = read
  have hlength := congrArg List.length hsplit
  have hreach := le_blocks ((Utf8.spell (Text.cut rest).1).length - r.buffer.length)
  have hleft := drop_ahead (k := read) hsplit (by
    simp only [List.length_append, List.length_take] at hlength ⊢
    omega)
  rw [List.drop_drop] at hleft
  by_cases hempty : rest = []
  · subst hempty
    exact ⟨_, rfl, rfl, bytes, hnode, hleft⟩
  · have hline : Utf8.spell (Text.cut rest).1 ≠ [] := fun hnil => Text.cut_nonempty hempty (Utf8.spell_eq_nil.mp hnil)
    rw [Text.lines_of_ne hempty, lineText_spell, List.isEmpty_eq_false_iff.mpr hline]
    exact ⟨_, rfl, rfl, bytes, hnode, hleft⟩

end Reader

/-! ## The disk -/

namespace Disk

variable {d d' : Disk} {p q : Path}

theorem lookup_others (nodes : List (Path × Node)) (p q : Path) :
    (nodes.filter (·.1 ≠ p)).lookup q = if q = p then none else nodes.lookup q := by
  induction nodes with
  | nil => simp
  | cons entry nodes ih =>
    obtain ⟨k, n⟩ := entry
    by_cases hk : k = p
    · rw [List.filter_cons_of_neg (by simpa using hk), ih]
      split
      · rfl
      · rename_i hq
        rw [List.lookup_cons, beq_eq_false_iff_ne.mpr (hk ▸ hq)]
    · rw [List.filter_cons_of_pos (by simpa using hk)]
      by_cases hq : q = k
      · rw [hq, if_neg hk, List.lookup_cons_self, List.lookup_cons_self]
      · rw [List.lookup_cons, List.lookup_cons, beq_eq_false_iff_ne.mpr hq, ih]

theorem node?_put (hp : p ≠ []) (n : Node) (q : Path) : (d.put p n).node? q = if q = p then some n else d.node? q := by
  unfold node? put
  by_cases hq : q = p
  · subst hq
    rw [if_neg hp, if_pos rfl, List.lookup_append, lookup_others, if_pos rfl, Option.none_or, List.lookup_cons_self]
  · rw [if_neg hq, List.lookup_append, lookup_others, if_neg hq, List.lookup_cons, beq_eq_false_iff_ne.mpr hq]
    simp

theorem ne_nil_of_file {bytes : List UInt8} (h : d.node? p = some (.file bytes)) : p ≠ [] := by
  rintro rfl
  cases h

theorem write_at_end {bytes : List UInt8} {offset : Option Nat} (h : d.node? p = some (.file bytes))
    (hoffset : offset.getD bytes.length = bytes.length) (more : List UInt8) :
    d.write p offset more = .ok (d.put p (.file (bytes ++ more))) := by
  simp only [write, h, hoffset, overwrite, List.take_length, Nat.sub_self, List.replicate_zero, List.append_nil]
  rw [List.drop_of_length_le (Nat.le_add_right _ _), List.append_nil]

theorem node?_write {offset : Option Nat} {more : List UInt8} (h : d.write p offset more = .ok d') (hq : q ≠ p) :
    d'.node? q = d.node? q := by
  unfold write at h
  split at h
  · rename_i bytes hnode
    cases h
    rw [node?_put (ne_nil_of_file hnode), if_neg hq]
  · cases h
    rfl
  · split at h
    · cases h
      rfl
    · cases h
  · cases h
  · cases h

/-- Where a path leads, and what the file there holds, if there is one. -/
def Leads (d : Disk) (path : String) (p : Path) : Option (List UInt8) → Prop
  | some bytes => d.locate path = .ok (.node p (.file bytes))
  | none => d.locate path = .ok (.free p)

/-- A place tells what stands there, or that nothing does. -/
def Shows (d : Disk) : Place → Prop
  | .node p n => n = .directory ∨ d.node? p = some n
  | .free p => p ≠ [] ∧ d.node? p = none
  | .freeDirectory => True

theorem shows_walk {here : Path} {names : List String} {place : Place} (h : d.walk here names = .ok place) :
    d.Shows place := by
  fun_induction walk d here names with
  | case1 => cases h; exact .inl rfl
  | case2 here name rest hname ih => exact ih h
  | case3 here rest hname ih => exact ih h
  | case5 here name rest hname hup hlong path hnode ih => exact ih h
  | case6 here name rest hname hup hlong path n hdir hnode hrest => cases h; exact .inr hnode
  | case8 here name rest hname hup hlong path hnode hrest => cases h; exact ⟨by simp [path], hnode⟩
  | case9 => cases h; trivial
  | _ => cases h

theorem shows_locate {path : String} {place : Place} (h : d.locate path = .ok place) : d.Shows place := by
  unfold locate at h
  split at h
  · cases h
  split at h
  · cases h
  split at h
  · cases h
  · exact shows_walk h

end Disk

/-! ## Writing -/

namespace Writer

variable {w : Writer} {d d' : Disk}

/-- What a file holds that a writer writes to the end of. -/
def At (w : Writer) (d : Disk) (sent : List UInt8) : Prop :=
  d.node? w.path = some (.file sent) ∧ w.offset.getD sent.length = sent.length

/-- What a file holds once the buffer of its writer has been sent. -/
def Holds (w : Writer) (d : Disk) (bytes : List UInt8) : Prop :=
  ∃ sent, w.At d sent ∧ sent ++ w.buffer = bytes

theorem send_at {sent : List UInt8} (h : w.At d sent) (more : List UInt8) :
    ∃ w' d', w.send more d = .ok (w', d') ∧ w'.path = w.path ∧ w'.buffer = w.buffer ∧ w'.At d' (sent ++ more) := by
  obtain ⟨hnode, hoffset⟩ := h
  have hput := Disk.node?_put (Disk.ne_nil_of_file hnode) (.file (sent ++ more)) w.path (d := d)
  rw [if_pos rfl] at hput
  let w' : Writer := { w with offset := w.offset.map (· + more.length) }
  refine ⟨w', d.put w.path (.file (sent ++ more)), ?_, rfl, rfl, hput, ?_⟩
  · rw [send, Disk.write_at_end hnode hoffset]
    rfl
  · cases ho : w.offset with
    | none => simp [w', ho]
    | some n =>
      rw [ho] at hoffset
      simpa [w', ho] using hoffset

theorem flush_holds {bytes : List UInt8} (h : w.Holds d bytes) :
    ∃ w' d', w.flush d = .ok (w', d') ∧ w'.path = w.path ∧ w'.buffer = [] ∧ w'.At d' bytes := by
  obtain ⟨sent, hat, hbytes⟩ := h
  unfold flush
  split
  · rename_i hempty
    have hnil := List.isEmpty_iff.mp hempty
    rw [hnil, List.append_nil] at hbytes
    exact ⟨w, d, rfl, rfl, hnil, hbytes ▸ hat⟩
  · obtain ⟨w', d', hsend, hpath, -, hat'⟩ := send_at hat w.buffer
    rw [hsend]
    exact ⟨_, _, rfl, hpath, rfl, hbytes ▸ hat'⟩

theorem node?_flush {q : Path} {sent : Writer × Disk} (h : w.flush d = .ok sent) (hq : q ≠ w.path) :
    sent.2.node? q = d.node? q := by
  unfold flush at h
  split at h
  · cases h
    rfl
  · cases hwrite : d.write w.path w.offset w.buffer with
    | error e => simp [send, hwrite, Except.map] at h
    | ok d' =>
      simp only [send, hwrite, Except.map] at h
      cases h
      exact Disk.node?_write hwrite hq

theorem write_holds {bytes : List UInt8} (h : w.Holds d bytes) (more : List UInt8) :
    ∃ w' d', w.write more d = (none, w', d') ∧ w'.path = w.path ∧ w'.Holds d' (bytes ++ more) := by
  -- Either there is room in the buffer or it has been sent.
  obtain ⟨w₁, d₁, hfirst, hpath, sent, hat, hsent, hbuffer⟩ :
      ∃ w₁ d₁, (if more.length ≤ w.spare then .ok (w, d) else w.flush d) = .ok (w₁, d₁) ∧ w₁.path = w.path ∧
        ∃ sent, w₁.At d₁ sent ∧ sent ++ w₁.buffer = bytes ∧ (more.length < blockSize ∨ w₁.buffer = []) := by
    split
    · rename_i hspare
      obtain ⟨sent, hat, hsent⟩ := h
      refine ⟨w, d, rfl, rfl, sent, hat, hsent, Decidable.or_iff_not_imp_left.mpr fun hlong => ?_⟩
      have hblock : 0 < blockSize := Nat.zero_lt_succ _
      have hzero : w.buffer.length = 0 := by
        unfold spare at hspare
        omega
      exact List.length_eq_zero_iff.mp hzero
    · obtain ⟨w', d', hflush, hpath, hnil, hat⟩ := flush_holds h
      exact ⟨w', d', hflush, hpath, bytes, hat, by rw [hnil, List.append_nil], .inr hnil⟩
  simp only [write, hfirst]
  split
  · exact ⟨_, _, rfl, hpath, sent, hat, by rw [← hsent, List.append_assoc]⟩
  · rename_i hlong
    obtain ⟨w', d', hsend, hpath', hbuffer', hat'⟩ := send_at hat more
    have hnil := hbuffer.resolve_left hlong
    rw [hsend]
    refine ⟨w', d', rfl, hpath'.trans hpath, sent ++ more, hat', ?_⟩
    rw [hbuffer', hnil, List.append_nil, ← hsent, hnil, List.append_nil]

end Writer

/-! ## Open files -/

namespace OpenFile

/-- What becomes of a file that has been opened. -/
inductive Stage where
  /-- It is written, and holds the bytes once nothing is buffered. -/
  | writing (bytes : List UInt8)
  /-- It is read, and this much is left. -/
  | reading (rest : List Char)
  | closed

def Stage.isOpen : Stage → Bool
  | .closed => false
  | _ => true

variable {f : OpenFile} {p : Path} {d d' : Disk} {stage : Stage} {path : String} {old : Option (List UInt8)}

/-- A file at a path, at a stage. -/
def Stands (f : OpenFile) (p : Path) (d : Disk) : Stage → Prop
  | .writing bytes => ∃ w, f.handle = some (.writer w) ∧ w.path = p ∧ w.Holds d bytes
  | .reading rest => ∃ r, f.handle = some (.reader r) ∧ r.path = p ∧ r.Ahead d rest
  | .closed => f.handle = none

/-- Only what is at the path matters. -/
theorem Stands.congr (h : f.Stands p d stage) (hd : d'.node? p = d.node? p) : f.Stands p d' stage := by
  cases stage with
  | writing bytes =>
    obtain ⟨w, hw, rfl, sent, ⟨hnode, hoffset⟩, hbytes⟩ := h
    exact ⟨w, hw, rfl, sent, ⟨hd.trans hnode, hoffset⟩, hbytes⟩
  | reading rest =>
    obtain ⟨r, hr, rfl, bytes, hnode, hrest⟩ := h
    exact ⟨r, hr, rfl, bytes, hd.trans hnode, hrest⟩
  | closed => exact h

theorem Stands.isSome_handle (h : f.Stands p d stage) : f.handle.isSome = stage.isOpen := by
  cases stage with
  | writing bytes =>
    obtain ⟨w, hw, -⟩ := h
    rw [hw]
    rfl
  | reading rest =>
    obtain ⟨r, hr, -⟩ := h
    rw [hr]
    rfl
  | closed => rw [show f.handle = none from h]; rfl

theorem stands_created (hp : p ≠ []) (path : String) (offset : Option Nat) (hoffset : offset.getD 0 = 0) :
    Stands ⟨path, some (.writer ⟨p, offset, []⟩)⟩ p (d.put p (.file [])) (.writing []) := by
  have hput := Disk.node?_put hp (.file []) p (d := d)
  rw [if_pos rfl] at hput
  exact ⟨⟨p, offset, []⟩, rfl, rfl, [], ⟨hput, hoffset⟩, rfl⟩

/-- The handle of a file that has just been opened. -/
def first (p : Path) : Mode → Handle
  | .read => .reader ⟨p, 0, []⟩
  | .write => .writer ⟨p, some 0, []⟩
  | .append => .writer ⟨p, none, []⟩

theorem open_of_disk {mode : Mode} (h : d.open? path mode = .ok (p, d')) :
    open? path mode d = .ok (⟨path, some (first p mode)⟩, d') := by
  rw [open?, h]
  cases mode <;> rfl

theorem open_write (h : d.Leads path p old) :
    ∃ f d', open? path .write d = .ok (f, d') ∧ f.path = path ∧ f.Stands p d' (.writing []) := by
  have hdisk : p ≠ [] ∧ d.open? path .write = .ok (p, d.put p (.file [])) := by
    cases old with
    | none =>
      have hplace : d.locate path = .ok (.free p) := h
      exact ⟨(Disk.shows_locate hplace).1, by simp only [Disk.open?, hplace]⟩
    | some bytes =>
      have hplace : d.locate path = .ok (.node p (.file bytes)) := h
      have hnode := (Disk.shows_locate hplace).resolve_left nofun
      exact ⟨Disk.ne_nil_of_file hnode, by simp only [Disk.open?, hplace]⟩
  exact ⟨_, _, open_of_disk hdisk.2, rfl, stands_created hdisk.1 path (some 0) rfl⟩

theorem open_append (h : d.Leads path p old) :
    ∃ f d', open? path .append d = .ok (f, d') ∧ f.path = path ∧ f.Stands p d' (.writing (old.getD [])) := by
  cases old with
  | none =>
    have hplace : d.locate path = .ok (.free p) := h
    have hdisk : d.open? path .append = .ok (p, d.put p (.file [])) := by simp only [Disk.open?, hplace]
    exact ⟨_, _, open_of_disk hdisk, rfl, stands_created (Disk.shows_locate hplace).1 path none rfl⟩
  | some bytes =>
    have hplace : d.locate path = .ok (.node p (.file bytes)) := h
    have hdisk : d.open? path .append = .ok (p, d) := by simp only [Disk.open?, hplace]
    have hnode := (Disk.shows_locate hplace).resolve_left nofun
    exact ⟨_, _, open_of_disk hdisk, rfl, ⟨p, none, []⟩, rfl, rfl, bytes, ⟨hnode, rfl⟩, List.append_nil bytes⟩

theorem open_read {cs : List Char} (h : d.Leads path p (some (Utf8.spell cs))) :
    ∃ f d', open? path .read d = .ok (f, d') ∧ f.path = path ∧ f.Stands p d' (.reading cs) := by
  have hplace : d.locate path = .ok (.node p (.file (Utf8.spell cs))) := h
  have hdisk : d.open? path .read = .ok (p, d) := by simp only [Disk.open?, hplace]
  have hnode := (Disk.shows_locate hplace).resolve_left nofun
  exact ⟨_, _, open_of_disk hdisk, rfl, ⟨p, 0, []⟩, rfl, rfl, Utf8.spell cs, hnode, rfl⟩

/-- A flush tells whether the file is open. Nothing that has been written stays behind. -/
theorem Stands.flush (h : f.Stands p d stage) :
    ∃ f' d', f.flush d = .ok (stage.isOpen, f', d') ∧ f'.path = f.path ∧ f'.Stands p d' stage ∧
      ∀ bytes, stage = .writing bytes → d'.node? p = some (.file bytes) := by
  cases stage with
  | writing bytes =>
    obtain ⟨w, hw, rfl, hholds⟩ := h
    obtain ⟨w', d', hflush, hpath, hbuffer, hat⟩ := Writer.flush_holds hholds
    have hnode : d'.node? w.path = some (.file bytes) := hpath ▸ hat.1
    refine ⟨{ f with handle := some (.writer w') }, d', ?_, rfl, ?_, fun _ hb => by cases hb; exact hnode⟩
    · rw [OpenFile.flush, hw]
      simp only [hflush]
      rfl
    · exact ⟨w', rfl, hpath, bytes, hat, by rw [hbuffer, List.append_nil]⟩
  | reading rest =>
    obtain ⟨r, hr, hahead⟩ := h
    refine ⟨f, d, ?_, rfl, ⟨r, hr, hahead⟩, nofun⟩
    rw [OpenFile.flush, hr]
    rfl
  | closed =>
    refine ⟨f, d, ?_, rfl, h, nofun⟩
    rw [OpenFile.flush, show f.handle = none from h]
    rfl

theorem Stands.close (h : f.Stands p d stage) :
    ∃ f' d', f.close d = .ok (stage.isOpen, f', d') ∧ f'.path = f.path ∧ f'.Stands p d' .closed ∧
      ∀ bytes, stage = .writing bytes → d'.node? p = some (.file bytes) := by
  obtain ⟨f', d', hflush, hpath, -, hsent⟩ := h.flush
  refine ⟨{ f' with handle := none }, d', ?_, hpath, rfl, hsent⟩
  rw [OpenFile.close, hflush]
  rfl

theorem Stands.abandon {bytes : List UInt8} (h : f.Stands p d (.writing bytes)) :
    (f.abandon d).node? p = some (.file bytes) := by
  obtain ⟨f', d', hflush, -, -, hsent⟩ := h.flush
  rw [OpenFile.abandon, hflush]
  exact hsent bytes rfl

theorem node?_abandon {q : Path} (h : ∀ w, f.handle = some (.writer w) → w.path ≠ q) (d : Disk) :
    (f.abandon d).node? q = d.node? q := by
  unfold OpenFile.abandon
  split
  · rename_i wasOpen f' d' hflush
    unfold OpenFile.flush at hflush
    split at hflush
    · cases hflush
      rfl
    · cases hflush
      rfl
    · rename_i w hw
      cases hw' : w.flush d with
      | error e => simp [hw', Except.map] at hflush
      | ok sent =>
        simp only [hw', Except.map] at hflush
        cases hflush
        exact Writer.node?_flush hw' (h w hw).symm
  · rfl

end OpenFile

end Crunch
