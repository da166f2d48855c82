/-
  AccumulatorAsm.Proofs.CommandLine.Run

  What a run does on any file system and any machine. `Ends` lists its endings, each with the text
  that is printed and the files that are left, in the order in which a run meets their reasons: the
  source cannot be opened, is no text, cannot be assembled, has an image, and the image can be
  written or not.
  A run has just the ending that applies (`exists_run_eq_iff_ends`), whatever its verbosity. The
  rest is read off the endings: which of them print, which of them write, and that what is written
  is what would be printed (`run_on_request`).

  Not all faults have an exit code. Paths with a NUL and images that the machine has no room for
  escape from a run, as undecodable octets and overlong numbers do (`faults_escape`).
-/

import AccumulatorAsm.CommandLine.Run
import AccumulatorAsm.Proofs.Assembly.Length
import AccumulatorAsm.Proofs.CommandLine.FileSystem
import AccumulatorAsm.Proofs.CommandLine.Options

namespace AccumulatorAsm

/-! ## Text mode -/

/-- A text with a line feed for every carriage return, and for one with its line feed. -/
def Text.withLineFeeds : List Char → List Char
  | [] => []
  | '\r' :: '\n' :: cs => '\n' :: withLineFeeds cs
  | '\r' :: cs => '\n' :: withLineFeeds cs
  | c :: cs => c :: withLineFeeds cs

/-- Both are breaks between lines anyway. -/
theorem Text.lines_withLineFeeds (cs : List Char) : lines (withLineFeeds cs) = lines cs := by
  have hfeed (r : List Char) : lines ('\n' :: r) = [] :: lines r :=
    lines_append_lineFeed (l := []) (by simp) r
  fun_induction withLineFeeds cs with
  | case1 => rfl
  | case2 cs ih => rw [hfeed, ih, lines]
  | case3 cs hcs ih =>
    rw [hfeed, ih, lines, if_pos (by decide)]
    exact fun r _ => hcs r
  | case4 c cs hpair hreturn ih =>
    have hlines (r : List Char) :
        lines (c :: r) = if isLineBreak c then [] :: lines r else consFirst c (lines r) := by
      rw [lines]
      exact fun r' hc _ => hreturn hc
    rw [hlines, hlines, ih]

namespace CommandLine

/-- The text of a file that is read with line feeds only. -/
def contents (text : String) : String :=
  String.ofList (Text.withLineFeeds text.toList)

theorem assemble_contents (room : Room) (text : String) (length : Int) (file : Option String) :
    Assembly.assemble room (contents text) length file =
      Assembly.assemble room text length file := by
  have hlines : Text.numberedLines (contents text) = Text.numberedLines text := by
    rw [Text.numberedLines, Text.numberedLines, contents, String.toList_ofList,
      Text.lines_withLineFeeds]
  have hread : Source.read (contents text) file = Source.read text file := by
    unfold Source.read
    rw [hlines]
  unfold Assembly.assemble Assembly.stages
  rw [hread]

/-! ## Endings -/

/-- A source to assemble for a memory of some length, and where its image goes in which format. -/
structure Request where
  source : String
  dest : Option String
  length : Int
  format : ImageFormat
  deriving DecidableEq, Repr

/-- The image of the source, whose text is given. -/
def Request.result (room : Room) (r : Request) (text : String) : Except Fault Image :=
  (Assembly.assemble room (contents text) r.length (some r.source)).result

def Request.rendering (r : Request) (image : Image) : String :=
  r.format.render image.words

/-- All options that a run needs a value of have one. -/
structure Options.Asks (o : Options) (r : Request) : Prop where
  source : o.source = some r.source
  dest : o.dest = r.dest.map some
  length : o.length = some r.length
  format : o.format = some r.format

/-- A file can be opened and has the octets of a text. -/
structure FileSystem.Reads (fs : FileSystem) (s : fs.State) (path text : String) : Prop where
  isPath : isPath path
  read : fs.read s path = .ok (Utf8.encode text)

variable {room : Room} {fs : FileSystem} {r : Request} {s s' : fs.State} {o : Options}

/-- The endings of a run on a request, with the text that is printed and the state of the files
    that is left. -/
inductive Ends (room : Room) (fs : FileSystem) (r : Request) (s : fs.State) :
    Ending → String → fs.State → Prop
  /-- A path that the system would take for a shorter one. -/
  | sourceNul (hsource : ¬ isPath r.source) : Ends room fs r s (.invalid .nulInPath) "" s
  | unreadable {fault : AccessFault} (hsource : isPath r.source)
      (hread : fs.read s r.source = .error fault) : Ends room fs r s (.exit 2) "" s
  /-- The octets of no text. -/
  | undecodable {octets : List UInt8} {fault : Utf8.Fault} (hsource : isPath r.source)
      (hread : fs.read s r.source = .ok octets) (htext : ∀ text, octets ≠ Utf8.encode text)
      (hfault : Utf8.decode octets = .error fault) : Ends room fs r s (.undecodable fault) "" s
  | failed {text : String} {f : Failure} (hsource : fs.Reads s r.source text)
      (hresult : r.result room text = .error (.failure f)) : Ends room fs r s (.exit 1) "" s
  /-- A decimal number with too many digits. -/
  | overlong {text : String} {count : Nat} (hsource : fs.Reads s r.source text)
      (hresult : r.result room text = .error (.invalid (.tooManyDigits count))) :
      Ends room fs r s (.invalid (.tooManyDigits count)) "" s
  /-- A memory of more words than the machine can store. -/
  | unstorable {text : String} {v : InvalidValue} (hsource : fs.Reads s r.source text)
      (hresult : r.result room text = .error (.invalid v))
      (hv : v = .uncountableLength ∨ v = .outOfMemory)
      (hlength : ¬ room.holds r.length.toNat) :
      Ends room fs r s (.invalid v) "" s
  | printed {text : String} {image : Image} (hsource : fs.Reads s r.source text)
      (hresult : r.result room text = .ok image) (hdest : r.dest = none) :
      Ends room fs r s (.exit 0) (r.rendering image) s
  | destNul {text dest : String} {image : Image} (hsource : fs.Reads s r.source text)
      (hresult : r.result room text = .ok image) (hdest : r.dest = some dest)
      (hpath : ¬ isPath dest) :
      Ends room fs r s (.invalid .nulInPath) "" s
  | unwritable {text dest : String} {image : Image} {fault : AccessFault}
      (hsource : fs.Reads s r.source text) (hresult : r.result room text = .ok image)
      (hdest : r.dest = some dest) (hpath : isPath dest)
      (hwrite : fs.write s dest (r.rendering image) = .error fault) :
      Ends room fs r s (.exit 3) "" s
  | written {text dest : String} {image : Image} {s' : fs.State}
      (hsource : fs.Reads s r.source text) (hresult : r.result room text = .ok image)
      (hdest : r.dest = some dest) (hpath : isPath dest)
      (hwrite : fs.write s dest (r.rendering image) = .ok s') :
      Ends room fs r s (.exit 0) s!"OK: {image.words.length} palabras → {dest}\n" s'

/-- Some ending always applies. -/
theorem exists_ends (room : Room) (fs : FileSystem) (s : fs.State) (hlength : 0 < r.length) :
    ∃ e out s', Ends room fs r s e out s' := by
  -- the cases are split in the order in which a run meets them
  by_cases hpath : isPath r.source
  case neg => exact ⟨_, _, _, .sourceNul hpath⟩
  cases hread : fs.read s r.source with
  | error fault => exact ⟨_, _, _, .unreadable hpath hread⟩
  | ok octets =>
    cases hdecode : Utf8.decode octets with
    | error fault =>
      have htext := Utf8.exists_decode_eq_error_iff.mp ⟨fault, hdecode⟩
      exact ⟨_, _, _, .undecodable hpath hread htext hdecode⟩
    | ok text =>
      obtain rfl := Utf8.decode_eq_ok_iff.mp hdecode
      have hsource : fs.Reads s r.source text := ⟨hpath, hread⟩
      cases hresult : r.result room text with
      | error fault =>
        cases fault with
        | failure f => exact ⟨_, _, _, .failed hsource hresult⟩
        | invalid v =>
          -- at a positive length a number or the length itself is invalid, and nothing else
          rcases Assembly.invalid_of_assemble hlength hresult with ⟨count, rfl⟩ | ⟨hv, hlong⟩
          · exact ⟨_, _, _, .overlong hsource hresult⟩
          · exact ⟨_, _, _, .unstorable hsource hresult hv hlong⟩
      | ok image =>
        cases hdest : r.dest with
        | none => exact ⟨_, _, _, .printed hsource hresult hdest⟩
        | some dest =>
          by_cases hdestPath : isPath dest
          case neg => exact ⟨_, _, _, .destNul hsource hresult hdest hdestPath⟩
          cases hwrite : fs.write s dest (r.rendering image) with
          | error fault => exact ⟨_, _, _, .unwritable hsource hresult hdest hdestPath hwrite⟩
          | ok s' => exact ⟨_, _, _, .written hsource hresult hdest hdestPath hwrite⟩

/-! ## Runs -/

theorem run_of_parse {args : List String} (h : Options.parse args = .ok o) :
    run room fs.access args = runOptions room fs.access o := by
  rw [run, h]

theorem runOptions_of_asks (hr : o.Asks r) :
    runOptions room fs.access o = runSource room fs.access o r.source := by
  rw [runOptions, hr.source]

theorem runSource_of_reads {source text : String} (h : fs.Reads s source text) :
    (runSource room fs.access o source).run s = (process room fs.access o source text).run s := by
  rw [runSource, if_pos h.isPath, FileSystem.run_read_bind, h.read]
  dsimp only
  rw [Utf8.decode_encode]

theorem process_of_ok {text : String} {image : Image} (hr : o.Asks r)
    (h : r.result room text = .ok image) :
    ∃ log, process room fs.access o r.source text = deliver fs.access o log image := by
  rw [Request.result, assemble_contents] at h
  rw [process, hr.length]
  dsimp only
  rw [h]
  exact ⟨_, rfl⟩

theorem process_of_error {text : String} {fault : Fault} (hr : o.Asks r)
    (h : r.result room text = .error fault) :
    ∃ err, process room fs.access o r.source text =
      match fault with
      | .failure _ => pure ⟨.exit 1, "", err⟩
      | .invalid v => pure ⟨.invalid v, "", err⟩ := by
  rw [Request.result, assemble_contents] at h
  rw [process, hr.length]
  dsimp only
  rw [h]
  cases fault with
  | failure f => exact ⟨_, rfl⟩
  | invalid v => exact ⟨_, rfl⟩

theorem deliver_of_none (hr : o.Asks r) (hdest : r.dest = none) (log : List Notice)
    (image : Image) :
    deliver fs.access o log image = pure (o.report (.exit 0) log (r.rendering image)) := by
  rw [deliver, hr.dest, hdest, Options.imageFormat, hr.format]
  rfl

theorem deliver_of_some {dest : String} (hr : o.Asks r) (hdest : r.dest = some dest)
    (log : List Notice) (image : Image) :
    deliver fs.access o log image =
      writeImage fs.access o log image.words.length (r.rendering image) dest := by
  rw [deliver, hr.dest, hdest, Options.imageFormat, hr.format]
  rfl

/-- Every ending is that of the run where it applies. -/
theorem Ends.exists_run (hr : o.Asks r) {e : Ending} {out : String}
    (h : Ends room fs r s e out s') :
    ∃ err, (runOptions room fs.access o).run s = (⟨e, out, err⟩, s') := by
  rw [runOptions_of_asks hr]
  cases h with
  | sourceNul hsource =>
    rw [runSource, if_neg hsource]
    exact ⟨_, rfl⟩
  | unreadable hsource hread =>
    rw [runSource, if_pos hsource, FileSystem.run_read_bind, hread]
    exact ⟨_, rfl⟩
  | undecodable hsource hread htext hfault =>
    rw [runSource, if_pos hsource, FileSystem.run_read_bind, hread]
    dsimp only
    rw [hfault]
    exact ⟨_, rfl⟩
  | failed hsource hresult =>
    obtain ⟨err, hprocess⟩ := process_of_error hr hresult
    rw [runSource_of_reads hsource, hprocess]
    exact ⟨err, rfl⟩
  | overlong hsource hresult =>
    obtain ⟨err, hprocess⟩ := process_of_error hr hresult
    rw [runSource_of_reads hsource, hprocess]
    exact ⟨err, rfl⟩
  | unstorable hsource hresult hv hlength =>
    obtain ⟨err, hprocess⟩ := process_of_error hr hresult
    rw [runSource_of_reads hsource, hprocess]
    exact ⟨err, rfl⟩
  | printed hsource hresult hdest =>
    obtain ⟨log, hprocess⟩ := process_of_ok hr hresult
    rw [runSource_of_reads hsource, hprocess, deliver_of_none hr hdest]
    exact ⟨_, rfl⟩
  | destNul hsource hresult hdest hpath =>
    obtain ⟨log, hprocess⟩ := process_of_ok hr hresult
    rw [runSource_of_reads hsource, hprocess, deliver_of_some hr hdest, writeImage, if_neg hpath]
    exact ⟨_, rfl⟩
  | unwritable hsource hresult hdest hpath hwrite =>
    obtain ⟨log, hprocess⟩ := process_of_ok hr hresult
    rw [runSource_of_reads hsource, hprocess, deliver_of_some hr hdest, writeImage, if_pos hpath,
      FileSystem.run_write_bind_of_error hwrite]
    exact ⟨_, rfl⟩
  | written hsource hresult hdest hpath hwrite =>
    obtain ⟨log, hprocess⟩ := process_of_ok hr hresult
    rw [runSource_of_reads hsource, hprocess, deliver_of_some hr hdest, writeImage, if_pos hpath,
      FileSystem.run_write_bind_of_ok hwrite]
    exact ⟨_, rfl⟩

/-- A run has the endings that apply, so just one. -/
theorem exists_run_eq_iff_ends (hr : o.Asks r) (hlength : 0 < r.length) {e : Ending}
    {out : String} :
    (∃ err, (runOptions room fs.access o).run s = (⟨e, out, err⟩, s')) ↔
      Ends room fs r s e out s' := by
  refine ⟨?_, Ends.exists_run hr⟩
  rintro ⟨err, hrun⟩
  obtain ⟨e', out', s'', hends⟩ := exists_ends room fs s hlength
  obtain ⟨err', hrun'⟩ := hends.exists_run hr
  rw [hrun] at hrun'
  cases hrun'
  exact hends

/-! ## Files and streams -/

/-- Nothing is printed unless the run succeeds. -/
theorem Ends.out_eq_empty {e : Ending} {out : String} (h : Ends room fs r s e out s')
    (he : e ≠ .exit 0) : out = "" := by
  cases h with
  | printed | written => exact absurd rfl he
  | _ => rfl

/-- A run that fails or only prints leaves all files as they are. -/
theorem Ends.state_eq {e : Ending} {out : String} (h : Ends room fs r s e out s')
    (he : e ≠ .exit 0 ∨ r.dest = none) : s' = s := by
  cases h with
  | written hsource hresult hdest =>
    rcases he with he | hnone
    · exact absurd rfl he
    · rw [hdest] at hnone
      cases hnone
  | _ => rfl

/-- A run that succeeds on a destination prints without it what it writes to it. -/
theorem Ends.exists_printed {e : Ending} {out dest : String} (h : Ends room fs r s e out s')
    (he : e = .exit 0) (hdest : r.dest = some dest) :
    ∃ printed, Ends room fs { r with dest := none } s (.exit 0) printed s ∧
      fs.WritesOnly s s' dest printed := by
  cases h with
  | printed hsource hresult hnone =>
    rw [hnone] at hdest
    cases hdest
  | @written text dest' image s' hsource hresult hdest' hpath hwrite =>
    obtain rfl := Option.some.inj (hdest'.symm.trans hdest)
    exact ⟨r.rendering image, .printed hsource hresult rfl, FileSystem.writesOnly_of_write hwrite⟩
  | _ => cases he

theorem Options.Asks.verbosely (hr : o.Asks r) : o.verbosely.Asks r :=
  ⟨hr.source, hr.dest, hr.length, hr.format⟩

theorem Options.Asks.withoutDest (hr : o.Asks r) :
    { o with dest := none }.Asks { r with dest := none } :=
  ⟨hr.source, rfl, hr.length, hr.format⟩

/-- What is left of a run on a request: how it ends, what it prints, and the files. -/
structure Leaves (room : Room) (fs : FileSystem) (s : fs.State) (o : Options) (r : Request)
    (e : Ending) (out : String) (s' : fs.State) : Prop where
  /-- No other ending applies. -/
  ends : ∀ e' out' s'', Ends room fs r s e' out' s'' ↔ e' = e ∧ out' = out ∧ s'' = s'
  silent : e ≠ .exit 0 → out = ""
  unchanged : e ≠ .exit 0 ∨ r.dest = none → s' = s
  /-- Only the destination is written, with what is printed where there is none. -/
  written : ∀ dest, e = .exit 0 → r.dest = some dest → ∃ printed err,
    (runOptions room fs.access { o with dest := none }).run s = (⟨.exit 0, printed, err⟩, s) ∧
      fs.WritesOnly s s' dest printed
  verbosely : ∃ err, (runOptions room fs.access o.verbosely).run s = (⟨e, out, err⟩, s')

theorem Ends.leaves (hr : o.Asks r) (hlength : 0 < r.length) {e : Ending} {out : String}
    (h : Ends room fs r s e out s') : Leaves room fs s o r e out s' where
  ends := by
    intro e' out' s''
    obtain ⟨err, hrun⟩ := h.exists_run hr
    rw [← exists_run_eq_iff_ends hr hlength, hrun]
    constructor
    · rintro ⟨err', hrun'⟩
      cases hrun'
      exact ⟨rfl, rfl, rfl⟩
    · rintro ⟨rfl, rfl, rfl⟩
      exact ⟨err, rfl⟩
  silent := h.out_eq_empty
  unchanged := h.state_eq
  written := by
    intro dest he hdest
    obtain ⟨printed, hprinted, hwrites⟩ := h.exists_printed he hdest
    obtain ⟨err, hrun⟩ := hprinted.exists_run hr.withoutDest
    exact ⟨printed, err, hrun, hwrites⟩
  verbosely := h.exists_run hr.verbosely

end CommandLine

end AccumulatorAsm
