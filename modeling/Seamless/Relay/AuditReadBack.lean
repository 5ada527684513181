import Seamless.Relay.AuditWriter

/-!
What a reader finds in the files of the log. An event is a line of its own unless a process
ended before the newline; then the next event stands in the same line.
-/

namespace Seamless.Relay

open Seamless.Library
open Seamless.Library.Text
open Seamless.Library.TransitionSystem

/-- A line in a file. It has no newline if a process ended before it was written. -/
structure Block where
  emission : Emission
  ended : Bool
  deriving Repr, DecidableEq

def Block.pieces (format : AuditFormat) (b : Block) : List String :=
  if b.ended then [b.emission.line format, "\n"] else [b.emission.line format]

/-- The text of a file that is made of these pieces. -/
def pieceText (pieces : List String) : List Char := pieces.flatMap String.toList

theorem pieceText_append (pieces more : List String) :
    pieceText (pieces ++ more) = pieceText pieces ++ pieceText more :=
  List.flatMap_append

namespace AuditPipe

/-- The line that stands at the end of the file and waits for its newline. -/
def openLine (p : AuditPipe) (file : Nat) : List Emission :=
  if p.log.writer.file = some file then p.writing.unended else []

/-- The events of a file, when these are the blocks of each. -/
def eventsIn (p : AuditPipe) (blocks : Nat → List Block) (file : Nat) : List Emission :=
  (blocks file).map Block.emission ++ p.openLine file

/-- A file has blocks, perhaps with an open line behind them; the blocks with no newline are
those of processes that ended too early. -/
structure InBlocks (format : AuditFormat) (p : AuditPipe) (blocks : Nat → List Block) :
    Prop where
  text : ∀ file, p.log.fs.contents file = (blocks file).flatMap (Block.pieces format) ++
    (p.openLine file).map (Emission.line format)
  torn : ∀ file, ∀ b ∈ blocks file, b.ended = false → b.emission ∈ p.torn
  ordered : ∀ file, (p.eventsIn blocks file).Sublist p.begun
  complete : ((List.range p.log.fs.files.length).flatMap (p.eventsIn blocks)).Perm p.begun

structure WellFormed (format : AuditFormat) (p : AuditPipe) : Prop where
  linked : p.log.Linked
  opened : ∀ e, p.writing = .halfway e → p.log.writer.file.isSome
  filed : ∃ blocks, p.InBlocks format blocks

theorem wellFormed_start (format : AuditFormat) : start.WellFormed format where
  linked := by
    intro file hfile
    cases hfile
  opened := by
    intro e hwriting
    cases hwriting
  filed := by
    refine ⟨fun _ => [], fun _ => rfl, ?_, fun _ => List.Sublist.refl _, List.Perm.refl _⟩
    intro file b hb
    cases hb

end AuditPipe

theorem perm_flatMap_range_snoc {α : Type} {f g : Nat → List α} {m n k : Nat} {a : α}
    (hmn : m ≤ n) (hk : k < n) (hnone : ∀ i, m ≤ i → f i = [])
    (hg : ∀ i, g i = if i = k then f i ++ [a] else f i) :
    ((List.range n).flatMap g).Perm ((List.range m).flatMap f ++ [a]) := by
  obtain ⟨d, rfl⟩ := Nat.exists_eq_add_of_le hmn
  have hsame : (List.range (m + d)).flatMap f = (List.range m).flatMap f := by
    rw [List.range_add, List.flatMap_append, List.flatMap_map]
    simp [hnone]
  rw [← hsame]
  generalize m + d = n at hk
  induction n with
  | zero => cases hk
  | succ n ih =>
      simp only [List.range_succ, List.flatMap_append, List.flatMap_singleton, hg n]
      rcases Nat.lt_succ_iff_lt_or_eq.mp hk with hlt | rfl
      · rw [if_neg hlt.ne']
        refine ((ih hlt).append_right (f n)).trans ?_
        rw [List.append_assoc, List.append_assoc]
        exact List.perm_append_comm.append_left _
      · have hbefore : (List.range k).flatMap g = (List.range k).flatMap f := by
          apply List.flatMap_congr
          intro i hi
          rw [hg, if_neg (List.mem_range.mp hi).ne]
        rw [if_pos rfl, hbefore, List.append_assoc]

section Blocks

variable {format : AuditFormat} {base : String} {p : AuditPipe} {e : Emission}

theorem AuditPipe.openLine_of_unended (h : p.writing.unended = []) (file : Nat) :
    p.openLine file = [] := by
  rw [openLine, h]
  exact ite_self _

theorem AuditPipe.openLine_self {file : Nat} (hfile : p.log.writer.file = some file) :
    p.openLine file = p.writing.unended :=
  if_pos hfile

theorem AuditPipe.openLine_of_ne {file file' : Nat} (hfile : p.log.writer.file = some file)
    (hne : file' ≠ file) : p.openLine file' = [] := by
  rw [openLine, hfile]
  exact if_neg fun h => hne (Option.some.inj h).symm

theorem AuditPipe.InBlocks.eventsIn_eq_nil {blocks : Nat → List Block}
    (h : p.InBlocks format blocks) {file : Nat} (hfile : p.log.fs.files.length ≤ file) :
    p.eventsIn blocks file = [] := by
  have htext := h.text file
  rw [contents_eq_nil hfile, eq_comm, List.append_eq_nil_iff, List.map_eq_nil_iff] at htext
  have hblocks : blocks file = [] := by
    cases hcons : blocks file with
    | nil => rfl
    | cons b rest =>
        rw [hcons, List.flatMap_cons, List.append_eq_nil_iff] at htext
        have hb := htext.1.1
        rw [Block.pieces] at hb
        split at hb <;> cases hb
  rw [eventsIn, hblocks, htext.2]
  rfl

theorem AuditPipe.WellFormed.aside {p' : AuditPipe} (hp : p.WellFormed format)
    (hlog : p'.log = p.log)
    (hwriting : p'.writing = p.writing ∨
      p.writing.unended = [] ∧ p'.writing.unended = [])
    (hbegun : p'.begun = p.begun) (htorn : p'.torn = p.torn) : p'.WellFormed format where
  linked := hlog ▸ hp.linked
  opened := by
    intro e he
    rcases hwriting with hsame | ⟨-, hnone⟩
    · exact hlog ▸ hp.opened e (hsame ▸ he)
    · rw [he] at hnone
      cases hnone
  filed := by
    obtain ⟨blocks, hblocks⟩ := hp.filed
    have hline : ∀ file, p'.openLine file = p.openLine file := by
      intro file
      rcases hwriting with hsame | ⟨hold, hnew⟩
      · rw [openLine, openLine, hlog, hsame]
      · rw [openLine_of_unended hold, openLine_of_unended hnew]
    have hevents : p'.eventsIn blocks = p.eventsIn blocks := by
      funext file
      rw [eventsIn, eventsIn, hline]
    refine ⟨blocks, ?_, htorn ▸ hblocks.torn, ?_, ?_⟩
    · intro file
      rw [hlog, hline, hblocks.text]
    · rw [hevents, hbegun]
      exact hblocks.ordered
    · rw [hevents, hlog, hbegun]
      exact hblocks.complete

theorem AuditPipe.WellFormed.lineWritten {p' : AuditPipe} {today : Date} {renameOk : Bool}
    (hp : p.WellFormed format) (hreceived : p.writing = .received e)
    (hlog : p'.log = p.log.writeEvent base today (e.line format) renameOk)
    (hwriting : p'.writing = .halfway e) (hbegun : p'.begun = p.begun ++ [e])
    (htorn : p'.torn = p.torn) : p'.WellFormed format := by
  obtain ⟨hlinked, file, hfile, hcontents⟩ :=
    hp.linked.writeEvent base today (e.line format) renameOk
  have hlength := p.log.length_le_writeEvent base today (e.line format) renameOk
  rw [← hlog] at hlinked hfile hcontents hlength
  refine ⟨hlinked, fun _ _ => by rw [hfile]; rfl, ?_⟩
  obtain ⟨blocks, hblocks⟩ := hp.filed
  have hclosed : ∀ file', p.openLine file' = [] :=
    openLine_of_unended (by rw [hreceived]; rfl)
  have hline : ∀ file', p'.openLine file' = if file' = file then [e] else [] := by
    intro file'
    by_cases hsame : file' = file
    · rw [if_pos hsame, hsame, openLine_self hfile, hwriting]
      rfl
    · rw [if_neg hsame, openLine_of_ne hfile hsame]
  have hevents : ∀ file', p'.eventsIn blocks file' =
      if file' = file then p.eventsIn blocks file' ++ [e] else p.eventsIn blocks file' := by
    intro file'
    rw [eventsIn, eventsIn, hline, hclosed, List.append_nil]
    split
    · rfl
    · exact List.append_nil _
  refine ⟨blocks, ?_, htorn ▸ hblocks.torn, ?_, ?_⟩
  · intro file'
    rw [hcontents, hblocks.text, hclosed, hline]
    split <;> simp
  · intro file'
    rw [hevents, hbegun]
    split
    · exact (hblocks.ordered file').append (List.Sublist.refl _)
    · exact (hblocks.ordered file').trans (List.sublist_append_left _ _)
  · rw [hbegun]
    refine (perm_flatMap_range_snoc hlength (hlinked file hfile) ?_ hevents).trans
      (hblocks.complete.append_right [e])
    exact fun _ hnew => hblocks.eventsIn_eq_nil hnew

theorem AuditPipe.WellFormed.newlineWritten {p' : AuditPipe} (hp : p.WellFormed format)
    (hhalfway : p.writing = .halfway e) (hlog : p'.log = p.log.writeNewline)
    (hwriting : p'.writing = .waiting) (hbegun : p'.begun = p.begun)
    (htorn : p'.torn = p.torn) : p'.WellFormed format := by
  obtain ⟨file, hfile⟩ := Option.isSome_iff_exists.mp (hp.opened e hhalfway)
  obtain ⟨hlinked, hcontents, hlength⟩ := hp.linked.writeNewline hfile
  rw [← hlog] at hlinked hcontents hlength
  have hnever : ∀ e', p'.writing ≠ .halfway e' := by simp [hwriting]
  refine ⟨hlinked, fun e' he' => absurd he' (hnever e'), ?_⟩
  obtain ⟨blocks, hblocks⟩ := hp.filed
  have hclosed : ∀ file', p'.openLine file' = [] :=
    openLine_of_unended (by rw [hwriting]; rfl)
  have hself : p.openLine file = [e] := by
    rw [openLine_self hfile, hhalfway]
    rfl
  let blocks' file' := if file' = file then blocks file' ++ [⟨e, true⟩] else blocks file'
  have hevents : p'.eventsIn blocks' = p.eventsIn blocks := by
    funext file'
    rw [eventsIn, eventsIn, hclosed, List.append_nil]
    by_cases hsame : file' = file
    · simp only [blocks', if_pos hsame, List.map_append, List.map_singleton]
      rw [hsame, hself]
    · simp only [blocks', if_neg hsame]
      rw [openLine_of_ne hfile hsame, List.append_nil]
  refine ⟨blocks', ?_, ?_, ?_, ?_⟩
  · intro file'
    rw [hcontents, hclosed, List.map_nil, List.append_nil, hblocks.text]
    by_cases hsame : file' = file
    · simp only [blocks', if_pos hsame]
      rw [hsame, hself, List.flatMap_append, List.append_assoc]
      rfl
    · simp only [blocks', if_neg hsame]
      rw [openLine_of_ne hfile hsame, List.map_nil, List.append_nil]
  · intro file' b hb hended
    rw [htorn]
    by_cases hsame : file' = file
    · simp only [blocks', if_pos hsame] at hb
      rcases List.mem_append.mp hb with hold | hnew
      · exact hblocks.torn file' b hold hended
      · rw [List.mem_singleton.mp hnew] at hended
        cases hended
    · simp only [blocks', if_neg hsame] at hb
      exact hblocks.torn file' b hb hended
  · rw [hevents, hbegun]
    exact hblocks.ordered
  · rw [hevents, hlength, hbegun]
    exact hblocks.complete

theorem AuditPipe.WellFormed.restarted (hp : p.WellFormed format) :
    p.restart.WellFormed format := by
  refine ⟨?_, fun _ hnever => (by cases hnever), ?_⟩
  · intro file hfile
    cases hfile
  obtain ⟨blocks, hblocks⟩ := hp.filed
  have hclosed : ∀ file, p.restart.openLine file = [] := openLine_of_unended rfl
  let blocks' file := blocks file ++ (p.openLine file).map fun e => ⟨e, false⟩
  have hevents : p.restart.eventsIn blocks' = p.eventsIn blocks := by
    funext file
    rw [eventsIn, eventsIn, hclosed, List.append_nil]
    simp [blocks', Function.comp_def]
  refine ⟨blocks', ?_, ?_, ?_, ?_⟩
  · intro file
    rw [hclosed, List.map_nil, List.append_nil]
    refine (hblocks.text file).trans ?_
    simp only [blocks', List.flatMap_append, List.flatMap_map]
    simp [Block.pieces, List.map_eq_flatMap]
  · intro file b hb hended
    rcases List.mem_append.mp hb with hold | hnew
    · exact List.mem_append_left _ (hblocks.torn file b hold hended)
    · obtain ⟨e, he, rfl⟩ := List.mem_map.mp hnew
      refine List.mem_append_right _ ?_
      rw [openLine] at he
      split at he
      · exact he
      · cases he
  · rw [hevents]
    exact hblocks.ordered
  · rw [hevents]
    exact hblocks.complete

theorem AuditPipe.WellFormed.step {p' : AuditPipe} {move : PipeMove} (hp : p.WellFormed format)
    (hstep : PipeStep format base p move p') : p'.WellFormed format := by
  cases hstep with
  | sent => exact hp.aside rfl (.inl rfl) rfl rfl
  | dropped => exact hp.aside rfl (.inl rfl) rfl rfl
  | received hwriting => exact hp.aside rfl (.inr ⟨by rw [hwriting]; rfl, rfl⟩) rfl rfl
  | lineWritten hwriting => exact hp.lineWritten hwriting rfl rfl rfl rfl
  | newlineWritten hwriting => exact hp.newlineWritten hwriting rfl rfl rfl rfl
  | restarted => exact hp.restarted

theorem AuditPipe.wellFormed_run {moves : List PipeMove}
    (hrun : FreeRun (AuditPipe.step format base) .start moves p) : p.WellFormed format :=
  hrun.invariant (I := AuditPipe.WellFormed format) (wellFormed_start format)
    fun _ _ _ hp _ hstep => hp.step (AuditPipe.step_cases hstep)

end Blocks

/-! ### What is read back -/

namespace Emission

/-- One line with the texts of these events; there are several when newlines are missing. -/
def glued (format : AuditFormat) (es : List Emission) : List Char :=
  es.flatMap fun e => (e.line format).toList

/-- What such a line is to a reader. -/
def gluedObject : List Emission → Option AuditObject
  | [e] => some e.object
  | _ => none

variable {format : AuditFormat} {objects : List AuditObject} {es : List Emission}

theorem glued_append (es es' : List Emission) :
    glued format (es ++ es') = glued format es ++ glued format es' :=
  List.flatMap_append

theorem glued_snoc (es : List Emission) (e : Emission) :
    glued format (es ++ [e]) = glued format es ++ (e.line format).toList := by
  rw [glued_append, glued, glued, List.flatMap_cons, List.flatMap_nil, List.append_nil]

theorem notMem_glued (hformat : format.Sound objects) (hes : ∀ e ∈ es, e.object ∈ objects)
    {c : Char} (hc : c.toNat < 32) : c ∉ glued format es := by
  rw [glued, List.mem_flatMap]
  rintro ⟨e, he, hmem⟩
  exact hformat.notMem_toString (hes e he) hc hmem

theorem glued_ne_nil (hformat : format.Sound objects) (hes : ∀ e ∈ es, e.object ∈ objects)
    (hne : es ≠ []) : glued format es ≠ [] := by
  obtain ⟨e, es, rfl⟩ := List.exists_cons_of_ne_nil hne
  rw [glued, List.flatMap_cons, ne_eq, List.append_eq_nil_iff, String.toList_eq_nil_iff]
  exact fun hempty => hformat.toString_ne_empty (hes e List.mem_cons_self) hempty.1

theorem read_glued (hformat : format.Sound objects) (hes : ∀ e ∈ es, e.object ∈ objects)
    (hne : es ≠ []) : format.fromStr (String.ofList (glued format es)) = gluedObject es := by
  match es, hne with
  | [e], _ =>
      rw [glued, List.flatMap_cons, List.flatMap_nil, List.append_nil, String.ofList_toList]
      exact hformat.reads _ (hes e List.mem_cons_self)
  | e :: e' :: es, _ =>
      have hsingle := hformat.single e.object (hes e List.mem_cons_self) e'.object
        (hes e' (List.mem_cons_of_mem _ List.mem_cons_self)) (String.ofList (glued format es))
      refine Eq.trans ?_ hsingle
      congr 1
      apply String.toList_injective
      simp [glued, line, String.toList_append]

theorem lines_last {torn started last : List Emission} (hformat : format.Sound objects)
    (hobjects : ∀ e ∈ started ++ last, e.object ∈ objects) (hstarted : started ⊆ torn)
    (hlast : last.length ≤ 1) :
    ∃ groups : List (List Emission), groups.flatten = started ++ last ∧
      (∀ g ∈ groups, g ≠ [] ∧ g.dropLast ⊆ torn) ∧
      lines (glued format (started ++ last)) = groups.map (glued format) := by
  by_cases hne : started ++ last = []
  · rw [hne]
    exact ⟨[], rfl, by simp, rfl⟩
  · refine ⟨[started ++ last], by simp, ?_, ?_⟩
    · rw [List.forall_mem_singleton]
      refine ⟨hne, ?_⟩
      match last, hlast with
      | [], _ =>
          rw [List.append_nil]
          exact List.Subset.trans (List.dropLast_subset _) hstarted
      | [e], _ =>
          rw [List.dropLast_concat]
          exact hstarted
    · exact lines_of_newline_notMem (notMem_glued hformat hobjects (by decide))
        (glued_ne_nil hformat hobjects hne)

end Emission

open Emission in
/-- The lines of a file with these blocks, when the texts of `started` stand in front of it
and those of `last` behind it. -/
theorem lines_blocks {format : AuditFormat} {objects : List AuditObject}
    {torn started last : List Emission} (blocks : List Block) (hformat : format.Sound objects)
    (hobjects : ∀ e ∈ started ++ (blocks.map Block.emission ++ last), e.object ∈ objects)
    (hstarted : started ⊆ torn) (hlast : last.length ≤ 1)
    (htorn : ∀ b ∈ blocks, b.ended = false → b.emission ∈ torn) :
    ∃ groups : List (List Emission),
      groups.flatten = started ++ (blocks.map Block.emission ++ last) ∧
      (∀ g ∈ groups, g ≠ [] ∧ g.dropLast ⊆ torn) ∧
      lines (glued format started ++
        (pieceText (blocks.flatMap (Block.pieces format)) ++ glued format last)) =
          groups.map (glued format) := by
  induction blocks generalizing started with
  | nil =>
      have htext : glued format started ++
          (pieceText (([] : List Block).flatMap (Block.pieces format)) ++ glued format last) =
            glued format (started ++ last) := by
        rw [glued_append]
        rfl
      rw [htext]
      exact lines_last hformat hobjects hstarted hlast
  | cons b blocks ih =>
      rw [List.forall_mem_cons] at htorn
      obtain ⟨e, ended⟩ := b
      have hnewline : "\n".toList = ['\n'] := by decide
      cases ended with
      | true =>
          have hfirst : ∀ e' ∈ started ++ [e], e'.object ∈ objects := by
            intro e' he'
            apply hobjects
            rcases List.mem_append.mp he' with hold | hnew
            · exact List.mem_append_left _ hold
            · rw [List.mem_singleton.mp hnew]
              exact List.mem_append_right _ List.mem_cons_self
          have hrest : ∀ e' ∈ [] ++ (blocks.map Block.emission ++ last), e'.object ∈ objects :=
            fun e' he' => hobjects e' (List.mem_append_right _ (List.mem_cons_of_mem _ he'))
          obtain ⟨groups, hflat, hgroups, hlines⟩ := ih hrest (List.nil_subset torn) htorn.2
          refine ⟨(started ++ [e]) :: groups, ?_, ?_, ?_⟩
          · rw [List.flatten_cons, hflat]
            simp
          · rw [List.forall_mem_cons]
            refine ⟨⟨by simp, ?_⟩, hgroups⟩
            rw [List.dropLast_concat]
            exact hstarted
          · have htext : glued format started ++ (pieceText (((⟨e, true⟩ : Block) :: blocks).flatMap
                (Block.pieces format)) ++ glued format last) =
                  glued format (started ++ [e]) ++ '\n' :: (glued format [] ++
                    (pieceText (blocks.flatMap (Block.pieces format)) ++ glued format last)) := by
              rw [List.flatMap_cons, pieceText_append, glued_snoc]
              simp [Block.pieces, pieceText, hnewline, glued]
            have hreturn : '\r' ∉ glued format (started ++ [e]) :=
              notMem_glued hformat hfirst (by decide)
            rw [htext, lines_append_newline (notMem_glued hformat hfirst (by decide)), hlines,
              List.map_cons]
            exact fun hlast => hreturn (List.mem_of_getLast? hlast)
      | false =>
          have hmore : started ++ [e] ⊆ torn := by
            rw [List.append_subset]
            exact ⟨hstarted, fun _ hmem => List.mem_singleton.mp hmem ▸ htorn.1 rfl⟩
          have hrest : ∀ e' ∈ (started ++ [e]) ++ (blocks.map Block.emission ++ last),
              e'.object ∈ objects := by
            simpa using hobjects
          obtain ⟨groups, hflat, hgroups, hlines⟩ := ih hrest hmore htorn.2
          refine ⟨groups, ?_, hgroups, ?_⟩
          · rw [hflat]
            simp
          · rw [← hlines, glued_snoc, List.flatMap_cons, pieceText_append]
            simp [Block.pieces, pieceText]

/-- `written` are the events that have got to the files. The lines of a file, whether or not
it still has a name, are the events of `groups file`; a line with several of them is no
object, and all but its last were being written when a process ended. -/
structure AuditPipe.Filed (format : AuditFormat) (p : AuditPipe) (written : List Emission)
    (groups : Nat → List (List Emission)) : Prop where
  lines : ∀ file, Text.lines (pieceText (p.log.fs.contents file)) =
    (groups file).map (Emission.glued format)
  read : ∀ file, (Text.lines (pieceText (p.log.fs.contents file))).map
    (fun line => format.fromStr (String.ofList line)) = (groups file).map Emission.gluedObject
  torn : ∀ file, ∀ g ∈ groups file, g ≠ [] ∧ g.dropLast ⊆ p.torn
  ordered : ∀ file, (groups file).flatten.Sublist written
  complete : ((List.range p.log.fs.files.length).flatMap
    fun file => (groups file).flatten).Perm written

theorem AuditPipe.WellFormed.filed_begun {format : AuditFormat} {p : AuditPipe}
    (hp : p.WellFormed format) {objects : List AuditObject} (hformat : format.Sound objects)
    (hobjects : ∀ e ∈ p.begun, e.object ∈ objects) :
    ∃ groups, p.Filed format p.begun groups := by
  obtain ⟨blocks, hblocks⟩ := hp.filed
  have hgroups : ∀ file, ∃ groups : List (List Emission),
      groups.flatten = p.eventsIn blocks file ∧
      (∀ g ∈ groups, g ≠ [] ∧ g.dropLast ⊆ p.torn) ∧
      Text.lines (pieceText (p.log.fs.contents file)) = groups.map (Emission.glued format) := by
    intro file
    have hlast : (p.openLine file).length ≤ 1 := by
      rw [AuditPipe.openLine]
      split
      · cases p.writing <;> simp [Writing.unended]
      · exact Nat.zero_le _
    have hknown : ∀ e ∈ [] ++ ((blocks file).map Block.emission ++ p.openLine file),
        e.object ∈ objects :=
      fun e he => hobjects e ((hblocks.ordered file).subset he)
    obtain ⟨groups, hflat, htorn, hlines⟩ := lines_blocks (blocks file) hformat hknown
      (List.nil_subset p.torn) hlast (hblocks.torn file)
    refine ⟨groups, hflat, htorn, ?_⟩
    rw [← hlines, hblocks.text, pieceText_append]
    simp [pieceText, Emission.glued, List.flatMap_map]
  choose groups hflat htorn hlines using hgroups
  refine ⟨groups, hlines, ?_, htorn, ?_, ?_⟩
  · intro file
    rw [hlines, List.map_map]
    apply List.map_congr_left
    intro g hg
    apply Emission.read_glued hformat _ (htorn file g hg).1
    intro e he
    apply hobjects e ((hblocks.ordered file).subset _)
    rw [← hflat]
    exact List.mem_flatten.mpr ⟨g, hg, he⟩
  · intro file
    rw [hflat]
    exact hblocks.ordered file
  · simp only [hflat]
    exact hblocks.complete

/-- However often the relay was stopped and started, even in the middle of a write, and
however the log was rotated: every event that was emitted stands in one line of one file, is
on its way there, or is lost, because it was emitted into a full channel or its process ended
first. The lines of a file have their events in the order in which they were emitted. A line
that is no object has several of them, and all but the last were being written when a process
ended. -/
theorem auditFile_readBack (format : AuditFormat) (base : String) (moves : List PipeMove)
    (p : AuditPipe) (hrun : FreeRun (AuditPipe.step format base) .start moves p)
    (hformat : format.Sound (p.emitted.map Emission.object)) :
    (∃ written groups, p.Filed format written groups ∧
      Accounts p.emitted (written ++ p.pending) p.lost) ∧
    (∀ e ∈ p.lost, Occurred (AuditPipe.step format base) (AuditPipe.Loses e) .start moves) ∧
    (∀ e ∈ p.torn, Occurred (AuditPipe.step format base) (AuditPipe.Tears e) .start moves) ∧
    ∀ file < p.log.fs.files.length, p.log.fs.Named file ∨
      Occurred (AuditPipe.step format base) (AuditPipe.Replaces base file) .start moves := by
  have haccounted := AuditPipe.accounted_run hrun
  have hobjects : ∀ e ∈ p.begun, e.object ∈ p.emitted.map Emission.object :=
    fun e he => List.mem_map_of_mem (haccounted.begun_subset he)
  obtain ⟨groups, hfiled⟩ := (AuditPipe.wellFormed_run hrun).filed_begun hformat hobjects
  exact ⟨⟨p.begun, groups, hfiled, haccounted⟩, AuditPipe.lost_run hrun, AuditPipe.torn_run hrun,
    AuditPipe.named_run hrun⟩

def failedClient : Emission := ⟨7, .reported forgedFailure⟩

def laterClient : Emission := ⟨8, .reported deniedClient⟩

def renewal : Emission := ⟨7, .certRenewed⟩

/-- The first process ends before it has written a newline, with an event in its channel. -/
def restartedWriter : List PipeMove :=
  [.emit failedClient, .emit renewal, .receive, .writeLine 7 true, .restart,
    .emit laterClient, .receive, .writeLine 8 true, .writeNewline]

theorem auditFile_readBack_restartedWriter :
    let format := formatOf ([failedClient, renewal, laterClient].map Emission.object)
    ∃ p, FreeRun (AuditPipe.step format "audit") .start restartedWriter p ∧
      p.torn = [failedClient] ∧ p.lost = [renewal] ∧
      p.log.fs.read "audit" = some [failedClient.line format, laterClient.line format, "\n"] ∧
      (∃ written groups, p.Filed format written groups ∧
        Accounts p.emitted (written ++ p.pending) p.lost) ∧
      (∀ e ∈ p.lost, Occurred (AuditPipe.step format "audit") (AuditPipe.Loses e) .start
        restartedWriter) ∧
      (∀ e ∈ p.torn, Occurred (AuditPipe.step format "audit") (AuditPipe.Tears e) .start
        restartedWriter) ∧
      ∀ file < p.log.fs.files.length, p.log.fs.Named file ∨
        Occurred (AuditPipe.step format "audit") (AuditPipe.Replaces "audit" file) .start
          restartedWriter := by
  intro format
  have hexec : (exec (AuditPipe.step format "audit") .start restartedWriter).map
      (fun p => (p.emitted, p.torn, p.lost, p.log.fs.read "audit")) =
        some ([failedClient, renewal, laterClient], [failedClient], [renewal],
          some [failedClient.line format, laterClient.line format, "\n"]) := rfl
  obtain ⟨p, hrun, hstate⟩ := exists_freeRun hexec
  obtain ⟨hemitted, htorn, hlost, hread⟩ :
      p.emitted = _ ∧ p.torn = _ ∧ p.lost = _ ∧ p.log.fs.read "audit" = _ := by
    simpa only [Prod.mk.injEq] using hstate
  have hformat : format.Sound (p.emitted.map Emission.object) := by
    rw [hemitted]
    exact sound_formatOf (by decide +kernel) (by decide +kernel)
  exact ⟨p, hrun, htorn, hlost, hread, auditFile_readBack format "audit" _ p hrun hformat⟩

end Seamless.Relay
