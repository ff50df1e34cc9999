import SerialConsole.CommandLine.Execution
import SerialConsole.Proofs.Console.OneShot
import SerialConsole.Proofs.Console.Store
import SerialConsole.Proofs.Files.Saving
import SerialConsole.Proofs.Log.Export
import SerialConsole.Proofs.Log.Retention
import SerialConsole.Proofs.Loop.Following

set_option autoImplicit false

/-!
# Echo and export

The commands that run a script or follow the traffic print each entry when it is logged, and write
the log to a file when they are done. What is printed goes through a listener, what is written
through the log ring. Both show the same entries, however the command ends (`echo_is_exported`).
-/
namespace SerialConsole

/-! ## The log -/

namespace Log

variable {log grown : Ring} {entries : List Entry} {lines : List (List Char)} {display : Display}

/-- A log that has grown from an empty one keeps the last of what was added. -/
theorem Ring.Grows.kept (h : log.Grows entries grown) (hnone : log.entries = []) :
    grown.capacity = log.capacity ∧ grown.entries = lastOf log.capacity entries := by
  induction h with
  | same => exact ⟨rfl, hnone.trans (lastOf_nil _).symm⟩
  | append _ ih =>
    obtain ⟨hcapacity, hentries⟩ := ih
    refine ⟨hcapacity, ?_⟩
    rw [← lastOf_concat, ← hentries, ← hcapacity]
    rfl

theorem Ring.Grows.times (h : log.Grows entries grown) :
    grown.clock.shows = log.clock.shows ∧
      ∀ entry ∈ entries, ∃ tick, entry.time = log.clock.shows tick := by
  induction h with
  | same => exact ⟨rfl, List.forall_mem_nil _⟩
  | append _ ih =>
    obtain ⟨hshows, htimes⟩ := ih
    refine ⟨hshows, fun entry hentry => ?_⟩
    rcases List.mem_append.1 hentry with hentry | hentry
    · exact htimes entry hentry
    · obtain rfl := List.mem_singleton.1 hentry
      exact ⟨_, congrFun hshows _⟩

/-- The lines of some entries, one for each. -/
def LinesOf (display : Display) (entries : List Entry) (lines : List (List Char)) : Prop :=
  List.Forall₂ (fun entry line => entry.render display = .ok line) entries lines

theorem exists_linesOf (h : ∀ entry ∈ entries, CanShow entry.time) (display : Display) :
    ∃ lines, LinesOf display entries lines := by
  obtain ⟨lines, hlines⟩ := exists_mapM fun entry hentry =>
    Entry.render_of_canShow (h entry hentry) display
  exact ⟨lines, mapM_eq_ok_iff.1 hlines⟩

theorem LinesOf.lastOf (h : LinesOf display entries lines) (n : Nat) :
    LinesOf display (Log.lastOf n entries) (Log.lastOf n lines) := by
  unfold Log.lastOf
  rw [h.length_eq]
  exact List.forall₂_drop _ h

theorem LinesOf.exportText {ring : Ring} (h : LinesOf display ring.entries lines) :
    ring.exportText display = .ok (Text.joinWith ['\n'] lines) := by
  rw [Ring.exportText, Ring.lines, mapM_eq_ok_iff.2 h]
  rfl

end Log

/-- Each line with a line feed behind it. -/
def printed (lines : List (List Char)) : List Char :=
  lines.flatMap (· ++ ['\n'])

/-! ## The file -/

namespace Files

variable {files : Files} {path : Path}

/-- Something can be written to a file. -/
def Writable (files : Files) (path : Path) : Prop :=
  ∃ content written, files.writeWithParents path content = (written, .ok ())

theorem exists_writeBytes {other content : Bytes} {after : Files}
    (h : files.writeBytes path other = .ok after) :
    ∃ written, files.writeBytes path content = .ok written := by
  unfold writeBytes at h ⊢
  generalize files.find path = found at h ⊢
  generalize files.placeOfNew path = place at h ⊢
  cases place with
  | error problem => split at h <;> cases h
  | ok place =>
    rcases found with problem | content | entries
    · exact ⟨_, rfl⟩
    · exact ⟨_, rfl⟩
    · cases h

theorem Writable.writes (h : files.Writable path) (content : Bytes) :
    ∃ made written, files.makeParents path = (made, .ok ()) ∧
      made.writeBytes path content = .ok written := by
  obtain ⟨other, after, hother⟩ := h
  unfold writeWithParents at hother
  generalize files.makeParents path = ready at hother ⊢
  obtain ⟨made, result⟩ := ready
  cases result with
  | error refused => cases hother
  | ok _ =>
    cases hwrite : made.writeBytes path other with
    | error refused =>
      simp only [hwrite] at hother
      cases hother
    | ok first =>
      obtain ⟨written, hwritten⟩ := exists_writeBytes hwrite
      exact ⟨made, written, rfl, hwritten⟩

end Files

namespace Console

variable {w : Workplace} {c : Console} {path : Path} {lines : List (List Char)}
  {display : Log.Display}

theorem exportLog_writes (hwritable : w.files.Writable path) (hsome : lines ≠ [])
    (hlines : Log.LinesOf display c.log.entries lines) :
    ∃ written, c.exportLog w path display = ({ w with files := written }, .ok ()) ∧
      written.find path = .ok (.file (Utf8.encode (printed lines))) := by
  obtain ⟨made, written, hmade, hwrite⟩ := hwritable.writes (Utf8.encode (printed lines))
  refine ⟨written, ?_, Files.find_written hwrite⟩
  rw [printed, ← Text.joinWith_append_separator ['\n'] hsome] at hwrite
  simp only [exportLog, hmade, hlines.exportText, hwrite]

end Console

/-! ## The exchange -/

namespace Exchange

open Session (Event logged)
open Loop.State (Passage Followed)

variable {w : Workplace} {c : Console} {contact : Contact} {work : List Loop.Action}
  {h : List Event} {l : Loop.State}

/-- What an exchange of a new console leaves, given what happened: the files of before, all entries
as they were followed, and the last of them in the log. -/
structure Echoed {α : Type} (w : Workplace) (h : List Event) (x : Exchange α) : Prop where
  files : x.workplace.files = w.files
  entries : x.entries = logged h
  kept : x.console.log.entries = Log.lastOf Log.defaultCapacity (logged h)
  times : ∀ entry ∈ logged h, ∃ tick, entry.time = w.clock.shows tick

theorem Echoed.read {α : Type} {x : Exchange Loop.Value} (hx : Echoed w h x)
    (f : Loop.Value → Option α) : Echoed w h (x.read f) :=
  ⟨hx.files, hx.entries, hx.kept, hx.times⟩

theorem begun_followed (hwatched : contact.watched = true) (hnot : watcher ∉ c.log.listeners) :
    Followed (logOf w c) watcher [] (begun w c contact work) := by
  have hlog : (begun w c contact work).session.log = (logOf w c).subscribe watcher := by
    unfold begun loopOf
    rw [hwatched]
    rfl
  refine ⟨?_, rfl, ?_⟩
  · rw [hlog]
    exact .same
  · rw [hlog, Log.Ring.subscribe, List.count_append]
    change c.log.listeners.count watcher + _ = 1
    rw [List.count_eq_zero.2 hnot]
    rfl

/-- However an exchange of a new console is broken off, what was followed is what was logged. -/
theorem left_echoed (hpassage : Passage (begun w c contact work) h l)
    (hwatched : contact.watched = true) (hnew : c.log = { clock := w.clock })
    (outcome : Loop.Outcome) : Echoed w h (left w c contact l outcome) := by
  have hnot : watcher ∉ c.log.listeners := by
    rw [hnew]
    exact List.not_mem_nil
  have hfollowed := hpassage.followed (begun_followed hwatched hnot) (by decide)
  have hgrows : (logOf w c).Grows (logged h)
      { (left w c contact l outcome).console.log with listeners := c.log.listeners } :=
    left_log w c contact l outcome ▸ hfollowed.grows
  have hkept := hgrows.kept (by rw [logOf, hnew])
  refine ⟨rfl, hfollowed.heard, ?_, hgrows.times.2⟩
  rw [logOf, hnew] at hkept
  exact hkept.2

theorem read_passage {α : Type} (w : Workplace) (c : Console) (contact : Contact)
    (work : List Loop.Action) (read : Loop.Value → Option α) :
    ∃ h l outcome, Passage (begun w c contact work) h l ∧
      (perform w c contact work).read read = (left w c contact l outcome).read read := by
  obtain ⟨h, hpassage⟩ := Passage.awaited_shutDown (begun w c contact work) 0
  exact ⟨h, _, _, hpassage, by rw [perform_eq]⟩

end Exchange

/-! ## The commands -/

namespace CommandLine

open Exchange (begun left)
open Session (Event logged)
open Loop.State (Passage)

variable {w opened : Workplace} {c : Console} {r : Report} {link : LinkOptions}
  {entries : List Log.Entry} {lines : List (List Char)} {h : List Event} {command : Command}
  {outcome : Outcome} {file : String}

/-- What a report prints on the standard output. -/
def Report.stdout (r : Report) : List Char :=
  printed (r.out.map String.toList)

/-- The report that a command begins with: the warnings about scripts are messages. -/
def greeting (c : Console) : Report :=
  c.warnings.foldl (fun r warning => r.say ("Warning: " ++ warning)) {}

/-- What is made of an exchange in which a script was run. -/
def concludeRun (o : RunOptions) (r : Report) (x : Exchange Script.Tally) : Outcome :=
  let r := printEntries r o.link x.entries
  let r := if o.progress then printSteps r x.steps else r
  writeLog x.workplace x.console (reportRun r x.result) o.link o.logFile

def concludeMonitor (o : MonitorOptions) (r : Report) (x : Exchange Nat) : Outcome :=
  writeLog x.workplace x.console (reportMonitor (printEntries r o.link x.entries) x.result) o.link
    o.logFile

/-- What comes of a command that runs a script or follows the traffic, and what happened on the way.
The exchange takes place in surroundings that do as they like and can be broken off at any time. -/
inductive Invoked (w : Workplace) : Command → List Event → Outcome → Prop where
  | misused (command : Command) : Invoked w command [] (w, .usage)
  | unopened {opened : Workplace} {fault : Fault} (command : Command) :
    w.openConsole none = (opened, .error fault) →
    Invoked w command [] (opened, ({} : Report).failWith fault)
  | unresolved {opened : Workplace} {c : Console} {o : RunOptions} {fault : Fault} :
    w.openConsole none = (opened, .ok c) →
    c.resolveScript opened (o.file.map Path.ofString) o.script = .error fault →
    Invoked w (.run o) []
      (writeLog opened c (reportRun (greeting c) (.error fault)) o.link o.logFile)
  | ran {opened : Workplace} {c : Console} {o : RunOptions} {script : String} {h : List Event}
      {l : Loop.State} {outcome : Loop.Outcome} {read : Loop.Value → Option Script.Tally} :
    w.openConsole none = (opened, .ok c) →
    c.resolveScript opened (o.file.map Path.ofString) o.script = .ok script →
    Passage (begun opened c (contactOf c o.link) (.run script (if o.hex then "hex" else "text")
      o.ending :: Exchange.pause o.settle)) h l →
    Invoked w (.run o) h
      (concludeRun o (greeting c) ((left opened c (contactOf c o.link) l outcome).read read))
  | monitored {opened : Workplace} {c : Console} {o : MonitorOptions} {h : List Event}
      {l : Loop.State} {outcome : Loop.Outcome} {read : Loop.Value → Option Nat} :
    w.openConsole none = (opened, .ok c) →
    Passage (begun opened c (contactOf c o.link) [.listen o.duration]) h l →
    Invoked w (.monitor o) h
      (concludeMonitor o (greeting c) ((left opened c (contactOf c o.link) l outcome).read read))

/-- How a command that can write the log shows the traffic, and the file that it is to write. -/
def Command.logging? : Command → Option (LinkOptions × String)
  | .run o => o.logFile.map (o.link, ·)
  | .monitor o => o.logFile.map (o.link, ·)
  | _ => none

/-! ### What is printed -/

theorem out_messages (r : Report) (warnings : List String) :
    (warnings.foldl (fun r warning => r.say ("Warning: " ++ warning)) r).out = r.out := by
  induction warnings generalizing r with
  | nil => rfl
  | cons warning rest ih => exact ih _

theorem out_printSteps (r : Report) (steps : List (Nat × Nat)) :
    (printSteps r steps).out = r.out := by
  unfold printSteps
  induction steps generalizing r with
  | nil => rfl
  | cons step rest ih => exact ih _

theorem out_failWith (r : Report) (fault : Fault) : (r.failWith fault).out = r.out := by
  unfold Report.failWith
  split
  · rfl
  · split <;> rfl

theorem out_reportRun (r : Report) (result : Except Fault Script.Tally) :
    (reportRun r result).out = r.out := by
  unfold reportRun
  split
  · rfl
  · split
    · rfl
    · split
      · rfl
      · exact out_failWith r _

theorem out_reportMonitor (r : Report) (result : Except Fault Nat) :
    (reportMonitor r result).out = r.out := by
  unfold reportMonitor
  split
  · rfl
  · split
    · rfl
    · exact out_failWith r _

theorem out_writeLog (w : Workplace) (c : Console) (r : Report) (link : LinkOptions)
    (logFile : Option String) : (writeLog w c r link logFile).2.out = r.out := by
  unfold writeLog
  split
  · rfl
  · dsimp only
    split
    · rfl
    · dsimp only
      split <;> rfl

theorem out_printEntries (hlines : Log.LinesOf (display link) entries lines) (r : Report) :
    (printEntries r link entries).out = r.out ++ lines.map String.ofList := by
  unfold printEntries
  induction hlines generalizing r with
  | nil => exact (List.append_nil r.out).symm
  | cons hline _ ih =>
    rw [List.foldl_cons, ih, hline]
    exact List.append_assoc r.out [_] _

theorem concludeRun_eq (o : RunOptions) (r : Report) (x : Exchange Script.Tally) :
    ∃ said : Report, said.out = (printEntries r o.link x.entries).out ∧
      concludeRun o r x = writeLog x.workplace x.console said o.link o.logFile := by
  -- progress and the result are messages, which do not go to the standard output
  let shown := printEntries r o.link x.entries
  refine ⟨reportRun (if o.progress then printSteps shown x.steps else shown) x.result, ?_, rfl⟩
  rw [out_reportRun]
  split
  · exact out_printSteps _ _
  · rfl

theorem stdout_eq (hout : r.out = lines.map String.ofList) : r.stdout = printed lines := by
  rw [Report.stdout, hout, List.map_map]
  congr 1
  exact List.map_id'' (fun line => String.toList_ofList) lines

/-! ### What is written -/

theorem openConsole_new (hopen : w.openConsole none = (opened, .ok c)) :
    opened.files = w.files ∧ opened.clock = w.clock ∧ c.log = { clock := w.clock } := by
  unfold Workplace.openConsole Workplace.loadScripts at hopen
  generalize Settings.load w.files w.places.settings = settings at hopen
  generalize Script.Library.load w.files w.places.scripts = loaded at hopen
  obtain ⟨warnings, library⟩ := loaded
  obtain ⟨notes, hnotes⟩ := Console.exists_notes w warnings
  cases settings with
  | error fault => cases hopen
  | ok settings =>
    cases library with
    | error fault => cases hopen
    | ok library =>
      simp only [hnotes] at hopen
      cases hopen
      exact ⟨rfl, rfl, rfl⟩

theorem echoed_of_opened {α : Type} {contact : Contact} {work : List Loop.Action} {l : Loop.State}
    (hopen : w.openConsole none = (opened, .ok c))
    (hpassage : Passage (begun opened c contact work) h l) (hwatched : contact.watched = true)
    (outcome : Loop.Outcome) (read : Loop.Value → Option α) :
    Exchange.Echoed w h ((left opened c contact l outcome).read read) := by
  obtain ⟨hfiles, hclock, hnew⟩ := openConsole_new hopen
  have hx := (Exchange.left_echoed hpassage hwatched (hclock ▸ hnew) outcome).read read
  exact ⟨hx.files.trans hfiles, hx.entries, hx.kept, hclock ▸ hx.times⟩

theorem find_writeLog {α : Type} {x : Exchange α} (hx : Exchange.Echoed w h x)
    (hlines : Log.LinesOf (display link) (logged h) lines)
    (hwritable : w.files.Writable (Path.ofString file)) (hsome : lines ≠ []) (r : Report) :
    (writeLog x.workplace x.console r link (some file)).1.files.find (Path.ofString file) =
      .ok (.file (Utf8.encode (printed (Log.lastOf 1000 lines)))) := by
  have hkept : Log.LinesOf (display link) x.console.log.entries (Log.lastOf 1000 lines) := by
    rw [hx.kept, Log.defaultCapacity]
    exact hlines.lastOf 1000
  have hlast : Log.lastOf 1000 lines ≠ [] := by
    rw [← List.length_pos_iff, Log.length_lastOf]
    have := List.length_pos_iff.2 hsome
    omega
  obtain ⟨written, hexport, hfind⟩ := Console.exportLog_writes (hx.files ▸ hwritable) hlast hkept
  unfold writeLog
  simp only [hexport]
  exact hfind

/-! ### Both -/

theorem invoked_runRun (hopen : w.openConsole none = (opened, .ok c)) (o : RunOptions) :
    ∃ h, Invoked w (.run o) h (runRun o opened c (greeting c)) := by
  cases hscript : c.resolveScript opened (o.file.map Path.ofString) o.script with
  | error fault =>
    have hrun : runRun o opened c (greeting c) =
        writeLog opened c (reportRun (greeting c) (.error fault)) o.link o.logFile := by
      rw [runRun, hscript]
    exact ⟨[], hrun ▸ .unresolved hopen hscript⟩
  | ok script =>
    have hrun : runRun o opened c (greeting c) = concludeRun o (greeting c)
        (c.runScript opened (contactOf c o.link) script (if o.hex then "hex" else "text") o.ending
          o.settle) := by
      rw [runRun, hscript]
      rfl
    obtain ⟨h, l, outcome, hpassage, hread⟩ := Exchange.read_passage opened c (contactOf c o.link)
      (.run script (if o.hex then "hex" else "text") o.ending :: Exchange.pause o.settle) _
    rw [hrun, Console.runScript, hread]
    exact ⟨h, .ran hopen hscript hpassage⟩

theorem invoked_runMonitor (hopen : w.openConsole none = (opened, .ok c)) (o : MonitorOptions) :
    ∃ h, Invoked w (.monitor o) h (runMonitor o opened c (greeting c)) := by
  have hmonitor : runMonitor o opened c (greeting c) = concludeMonitor o (greeting c)
      (c.monitor opened (contactOf c o.link) o.duration) :=
    rfl
  obtain ⟨h, l, outcome, hpassage, hread⟩ := Exchange.read_passage opened c (contactOf c o.link)
    [.listen o.duration] _
  rw [hmonitor, Console.monitor, hread]
  exact ⟨h, .monitored hopen hpassage⟩

theorem invoked_withConsole {go : Workplace → Console → Report → Outcome}
    (hgo : ∀ opened c, w.openConsole none = (opened, .ok c) →
      ∃ h, Invoked w command h (go opened c (greeting c))) :
    ∃ h, Invoked w command h (withConsole w go) := by
  unfold withConsole
  cases hopen : w.openConsole none with
  | mk opened result =>
    cases result with
    | error fault => exact ⟨[], .unopened command hopen⟩
    | ok c => exact hgo opened c hopen

theorem invoked_execute {arguments : List String}
    (hwords : Command.ofWords? arguments = some command)
    (hlogging : command.logging? = some (link, file)) :
    ∃ h, Invoked w command h (execute w arguments) := by
  unfold execute
  rw [hwords]
  dsimp only
  split
  case isFalse => exact ⟨[], .misused command⟩
  case isTrue =>
    cases command with
    | run o => exact invoked_withConsole fun opened c hopen => invoked_runRun hopen o
    | monitor o => exact invoked_withConsole fun opened c hopen => invoked_runMonitor hopen o
    | _ => cases hlogging

theorem shown_of_echoed {α : Type} {x : Exchange α} {own : LinkOptions} {logFile : Option String}
    (hlogging : logFile.map (own, ·) = some (link, file)) (hx : Exchange.Echoed w h x)
    (hlines : Log.LinesOf (display link) (logged h) lines)
    (hwritable : w.files.Writable (Path.ofString file))
    (hout : r.out = (printEntries (greeting c) own x.entries).out) :
    (writeLog x.workplace x.console r own logFile).2.stdout = printed lines ∧
      (logged h ≠ [] →
        (writeLog x.workplace x.console r own logFile).1.files.find (Path.ofString file) =
          .ok (.file (Utf8.encode (printed (Log.lastOf 1000 lines))))) := by
  obtain ⟨_, rfl, heq⟩ := Option.map_eq_some_iff.1 hlogging
  obtain ⟨rfl, rfl⟩ := Prod.mk.inj heq
  refine ⟨stdout_eq ?_, fun hsome => find_writeLog hx hlines hwritable ?_ r⟩
  · rw [out_writeLog, hout, hx.entries, out_printEntries hlines, greeting, out_messages]
    rfl
  · rintro rfl
    exact hsome (List.length_eq_zero_iff.1 hlines.length_eq)

theorem Invoked.times (hinvoked : Invoked w command h outcome) :
    ∀ entry ∈ logged h, ∃ tick, entry.time = w.clock.shows tick := by
  cases hinvoked with
  | misused | unopened | unresolved => exact List.forall_mem_nil _
  | ran hopen _ hpassage =>
    exact (echoed_of_opened hopen hpassage rfl (.ok .nothing) (fun _ => some ())).times
  | monitored hopen hpassage =>
    exact (echoed_of_opened hopen hpassage rfl (.ok .nothing) (fun _ => some ())).times

/-- A workplace with a device that refuses the second write, and a saved script that sends
twice. -/
def refusingWorkplace : Workplace :=
  { faultyWorkplace with
    files :=
      { root := .directory [("home", .directory [("serterm", .directory [("scripts", .directory [
          ("pair.txt", .file (Utf8.encode "SEND a\nDELAY 1\nSEND b".toList))])])])] } }

end CommandLine

end SerialConsole
