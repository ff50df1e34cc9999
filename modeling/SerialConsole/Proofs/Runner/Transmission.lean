import SerialConsole.Proofs.Runner.Performance

set_option autoImplicit false

/-!
# From a script to the wire

What a script that was accepted comes to on a session that nobody disturbs (`script_transmitted`):
its unfolding is written, each value as its bytes, up to the first one of which no bytes can be
made.
-/
namespace SerialConsole.Running

open Session (World Move starts payloads logged)
open Script (Block Command sentBy sentOf Exchange)

namespace Performance

variable {job : Job} {p : Performance job} {w : World} {d : Handle} {ready : Runner}

/-- What a run comes to. In a fair course it ends. When it ends, it ends with the given outcome, no
call of it is left, and since the world `w` the device was asked to write the given bytes and, reads
aside, for nothing else; the log has grown by entries of which the sent ones hold the same bytes. -/
structure Comes (p : Performance job) (w : World) (outcome : Except Fault Script.Tally)
    (written : List Bytes) : Prop where
  ends : p.Fair → ∃ t, p.Goes t ∧ (p.scene t).turn = .finished outcome
  only : ∀ t result, p.Goes t → (p.scene t).turn = .finished result →
    result = outcome ∧ (p.scene t).sending = none ∧ ∃ d new, w.session.device = some d ∧
      (p.scene t).world.history = w.history ++ new ∧ starts new = written.map (.write d) ∧
      w.session.log.Grows (logged new) (p.scene t).world.session.log ∧ payloads .sent new = written

theorem Undisturbed.follows_start (hcalm : p.Undisturbed)
    (hfirst : p.scene 0 = ⟨w, ready, job.plan.start, none⟩) (hready : ready.stopRequested = false) :
    ∃ d, w.session.device = some d ∧ (p.scene 0).Follows job w d [] := by
  have hworld : (p.scene 0).world = w := by rw [hfirst]
  obtain ⟨course, hsound⟩ := (hworld ▸ p.reachable_at 0 : w.Reachable).sound
  obtain ⟨d, _, hdevice, _⟩ := hsound.connected (hworld ▸ hcalm.connected 0 p.goes_zero)
  have hidle := hcalm.idle
  rw [hfirst] at hidle ⊢
  refine ⟨d, hdevice, hdevice, hready, ⟨{}, .nil _ _⟩, fun c hc => ?_, [], [], [], [],
    (List.append_nil _).symm, rfl, rfl, rfl, .nothing rfl⟩
  rw [hidle c] at hc
  cases hc

/-- A run comes to what its exchanges lead to. -/
theorem Undisturbed.comes (hcalm : p.Undisturbed)
    (hrange : ∀ c ∈ job.plan.commands.toList, c.InRange)
    (hfirst : p.scene 0 = ⟨w, ready, job.plan.start, none⟩) (hready : ready.stopRequested = false)
    {whole : List Exchange} {outcome : Except Fault Script.Tally} {final : Script.Trace}
    (hend : job.plan.Leads job.surroundings job.plan.start {} whole (.finished outcome) final)
    {written : List Bytes} (hwritten : (sentOf whole).map job.encode = written.map .ok) :
    p.Comes w outcome written := by
  obtain ⟨d, hdevice, hstart⟩ := hcalm.follows_start hfirst hready
  have hworld : (p.scene 0).world = w := by rw [hfirst]
  constructor
  case ends =>
    exact fun hfair => hfair.finishes hcalm hrange p.goes_zero hstart hend
  case only =>
    intro t result hgoes hturn
    obtain ⟨exchanges, hfollows⟩ := follows_on hcalm hrange hstart (Nat.zero_le t) hgoes
    rw [List.nil_append] at hfollows
    obtain ⟨trace, hleads⟩ := hfollows.leads
    -- a script that is over has no exchange left, so it has come the whole way
    obtain ⟨later, rfl, hlater⟩ := hleads.extends hend
    rw [hturn] at hlater
    cases hlater with
    | nil =>
      obtain ⟨new, written', begun, done, hnew, hwritten', hstarts, hsent, hpending⟩ :=
        hfollows.sent
      rw [List.append_nil, hwritten'] at hwritten
      obtain rfl : written' = written :=
        (List.map_inj_right fun _ _ => Except.ok.inj).1 hwritten
      cases hpending with
      | send _ hsends _ =>
        rw [hturn] at hsends
        cases hsends
      | nothing hsending =>
        rw [List.append_nil] at hstarts hsent
        obtain ⟨moves, hrun⟩ := p.session.run_to t
        have hfrom : w.run moves = some (p.scene t).world := hworld ▸ hrun
        have hreach : w.Reachable := hworld ▸ p.reachable_at 0
        obtain ⟨new', hnew', hgrows⟩ := hreach.log_grows hfrom
        obtain rfl : new = new' := List.append_cancel_left (hnew.symm.trans hnew')
        exact ⟨rfl, hsending, d, new, hdevice, hnew, hstarts, hgrows, hsent⟩

end Performance

theorem start_ready {runner : Runner} {script : String} {commands : List Command}
    (hidle : runner.running = false) (hparse : Script.parse script.toList = .ok commands)
    (format ending : String) : ∃ ready note,
      runner.start script format ending =
        .ok (ready, ⟨{ commands := commands.toArray }, format, ending⟩, note) ∧
      ready.stopRequested = false := by
  refine ⟨{ runner with running := true, stopRequested := false },
    ⟨.info, "Running script with " ++ toString commands.length ++ " commands"⟩, ?_, rfl⟩
  rw [Runner.start, hidle, if_neg Bool.false_ne_true, hparse]

theorem within_default {b : Block} {plan : Script.Plan}
    (hplan : plan = { commands := (b.commands 0).toArray }) (hsteps : b.steps ≤ 1000000) :
    (b.steps : Int) ≤ plan.maxSteps := by
  rw [hplan]
  change (b.steps : Int) ≤ 1000000
  omega

/-- What is written for a row of values: the bytes of each, and at least one for each. -/
def Written (format ending : String) (values : List String) (written : List Bytes) : Prop :=
  (values.map fun value => Payload.encode value format ending) = written.map .ok ∧ [] ∉ written

theorem exists_written {values : List String} {format ending : String}
    (hvalues : ∀ value ∈ values, value ≠ "")
    (hall : ∀ value ∈ values, ∃ data, Payload.encode value format ending = .ok data) :
    ∃ written, Written format ending values written := by
  induction values with
  | nil => exact ⟨[], rfl, List.not_mem_nil⟩
  | cons value rest ih =>
    obtain ⟨data, hencode⟩ := hall value List.mem_cons_self
    obtain ⟨written, hrest, hsome⟩ := ih (fun v hv => hvalues v (List.mem_cons_of_mem _ hv))
      fun v hv => hall v (List.mem_cons_of_mem _ hv)
    have hdata : data ≠ [] := Payload.encode_ne_nil (hvalues value List.mem_cons_self) hencode
    refine ⟨data :: written, ?_, List.not_mem_cons_of_ne_of_not_mem hdata.symm hsome⟩
    rw [List.map_cons, hencode, hrest, List.map_cons]

namespace Performance

section

variable {b : Block} {job : Job} {w : World} {ready : Runner} {p : Performance job}

/-- A tree of which all values can be written is written to its end. -/
theorem Undisturbed.transmits_all (hcalm : p.Undisturbed)
    (hplan : job.plan = { commands := (b.commands 0).toArray })
    (hfirst : p.scene 0 = ⟨w, ready, job.plan.start, none⟩) (hready : ready.stopRequested = false)
    (hsize : b.size ≠ 0) (hrange : ∀ c ∈ b.commands 0, c.InRange) (hsteps : b.steps ≤ 1000000)
    (hall : ∀ value ∈ sentBy (b.unfolding 0), ∃ data, job.encode value = .ok data) :
    ∃ written, Written job.format job.ending (sentBy (b.unfolding 0)) written ∧
      p.Comes w (.ok ⟨b.steps, written.length, b.size⟩) written := by
  have hcommands : job.plan.commands = (b.commands 0).toArray := congrArg (·.commands) hplan
  obtain ⟨whole, final, hend, hsent⟩ := Script.Plan.leads_granted hcommands hsize hrange
    (within_default hplan hsteps) fun value hvalue => by
      obtain ⟨data, hencode⟩ := hall value hvalue
      exact Job.refuses_of_ok hencode
  obtain ⟨written, hwritten⟩ :=
    exists_written (fun value => Script.ne_of_mem_sentBy hrange) hall
  have hlength : (sentBy (b.unfolding 0)).length = written.length := by
    simpa using congrArg List.length hwritten.1
  rw [hlength] at hend
  exact ⟨written, hwritten,
    hcalm.comes (by rwa [hcommands]) hfirst hready hend (hsent ▸ hwritten.1)⟩

/-- A tree is written up to the first value that cannot be written. -/
theorem Undisturbed.transmits_until (hcalm : p.Undisturbed)
    (hplan : job.plan = { commands := (b.commands 0).toArray })
    (hfirst : p.scene 0 = ⟨w, ready, job.plan.start, none⟩) (hready : ready.stopRequested = false)
    (hrange : ∀ c ∈ b.commands 0, c.InRange) (hsteps : b.steps ≤ 1000000)
    {before after : List Script.Entry} {i line : Nat} {value : String} {fault : Fault}
    (hunfolding : b.unfolding 0 = before ++ (i, .send value line) :: after)
    (hbefore : ∀ value ∈ sentBy before, ∃ data, job.encode value = .ok data)
    (hvalue : job.encode value = .error fault) (hordinary : fault.isOrdinary = true) :
    ∃ written, Written job.format job.ending (sentBy before) written ∧
      p.Comes w (.error (.sendFailed i b.size fault)) written := by
  have hcommands : job.plan.commands = (b.commands 0).toArray := congrArg (·.commands) hplan
  obtain ⟨whole, final, hend, hsent⟩ := Script.Plan.leads_refused hcommands hrange
    (within_default hplan hsteps) hunfolding
    (fun value hmem => by
      obtain ⟨data, hencode⟩ := hbefore value hmem
      exact Job.refuses_of_ok hencode) (Job.refuses_of_error hvalue) hordinary
  have hsome : ∀ value ∈ sentBy before, value ≠ "" := by
    intro v hv
    refine Script.ne_of_mem_sentBy hrange ?_
    rw [hunfolding, sentBy, List.filterMap_append]
    exact List.mem_append_left _ hv
  obtain ⟨written, hwritten⟩ := exists_written hsome hbefore
  exact ⟨written, hwritten,
    hcalm.comes (by rwa [hcommands]) hfirst hready hend (hsent ▸ hwritten.1)⟩

end

end Performance

/-- A script that was accepted, run on a session that stays connected, whose writes succeed and that
nobody else sends on, nobody asking to stop and no progress call failing. If the format is text or
all values of the script are valid, the unfolding of the script is written and logged, each value as
its bytes, and the outcome counts them. In hexadecimal format the first value of the unfolding that
is not valid ends the run with the place of its command: what comes before it is written. However
the run is disturbed, no send of it ends for want of something to write or writes nothing. -/
theorem script_transmitted {script format ending : String} {commands : List Command}
    (hparse : Script.parse script.toList = .ok commands) (hsome : commands ≠ [])
    (hformat : format = "text" ∨ format = "hex") (hending : ending ∈ ["none", "LF", "CR", "CRLF"])
    {runner : Runner} (hidle : runner.running = false) :
    ∃ (b : Block) (ready : Runner) (job : Job) (note : Note), commands = b.commands 0 ∧
      (∀ c : Block, commands = c.commands 0 → c = b) ∧
      runner.start script format ending = .ok (ready, job, note) ∧
      ∀ (w : World) (p : Performance job), p.scene 0 = ⟨w, ready, job.plan.start, none⟩ →
        (b.steps ≤ 1000000 → p.Undisturbed →
          (format = "text" ∨
              (∀ value line, .send value line ∈ commands → Hex.isValid value.toList = true) →
            ∃ written, Written format ending (sentBy (b.unfolding 0)) written ∧
              p.Comes w (.ok ⟨b.steps, written.length, commands.length⟩) written) ∧
          (format = "hex" → ∀ value line, .send value line ∈ commands →
              Hex.isValid value.toList = false →
            ∃ before i first line after written,
              b.unfolding 0 = before ++ (i, .send first line) :: after ∧
              (∀ value ∈ sentBy before, Hex.isValid value.toList = true) ∧
              Hex.isValid first.toList = false ∧ Written format ending (sentBy before) written ∧
              p.Comes w (.error (.sendFailed i commands.length (.hexPayload first))) written ∧
              (Fault.hexPayload first).kind = .hexFormat)) ∧
        ∀ t id, p.act t = some (.send id) → ∀ u, t < u →
          (∀ fault told, (p.scene u).world.tasks (.call id) = .rests (.over (.error fault)) told →
            fault.kind ≠ .emptyPayload) ∧
          ∀ d, .asked (.call id) (.write d []) ∉ (p.scene u).world.history := by
  obtain ⟨b, rfl⟩ := Script.parse_eq_commands hparse
  obtain ⟨ready, note, hstart, hready⟩ := start_ready hidle hparse format ending
  have hsize : b.size ≠ 0 := by
    rw [← Block.commands_length b 0]
    exact fun hzero => hsome (List.eq_nil_of_length_eq_zero hzero)
  have hrange : ∀ c ∈ b.commands 0, c.InRange := (Script.readUpTo_parse hparse).in_range
  rw [Block.commands_length]
  refine ⟨b, ready, _, note, rfl, fun c hc => (Block.commands_injective hc).symm, hstart,
    fun w p hfirst => ⟨fun hsteps hcalm => ⟨?_, ?_⟩, ?_⟩⟩
  · intro hall
    refine hcalm.transmits_all rfl hfirst hready hsize hrange hsteps fun value hvalue =>
      Payload.encode_accepted hending ?_
    rcases hformat with htext | hhex
    · exact Or.inl htext
    · obtain ⟨line, hsend⟩ := (Script.mem_sentBy_iff hrange).1 hvalue
      exact hall.imp_right fun hvalid => ⟨hhex, hvalid value line hsend⟩
  · rintro rfl value line hsend hinvalid
    have hmem := (Script.mem_sentBy_iff hrange).2 ⟨line, hsend⟩
    obtain ⟨before, i, first, line, after, hunfolding, hbefore, hrefused⟩ :=
      Script.exists_first_send (fun value => Hex.isValid value.toList) hmem hinvalid
    obtain ⟨written, hwritten, hcomes⟩ := hcalm.transmits_until rfl hfirst hready hrange
      hsteps hunfolding
      (fun v hv => Payload.encode_accepted hending (Or.inr ⟨rfl, hbefore v hv⟩))
      (Payload.encode_hex_invalid ending hrefused) rfl
    exact ⟨before, i, first, line, after, written, hunfolding, hbefore, hrefused, hwritten, hcomes,
      rfl⟩
  · intro t id hact u hu
    exact p.sends_something (congrArg (·.turn) hfirst) hrange hact hu

/-- A session that reads from a device. -/
def connected : World :=
  ((World.fresh {} Double.zero).run [.begin 0 (.connect {} none),
    .answer (.call 0) (.device ⟨7, "tty"⟩), .answer (.call 0) .done, .startReading 0]).getD
      (World.fresh {} Double.zero)

theorem connected_run : (World.fresh {} Double.zero).run [.begin 0 (.connect {} none),
    .answer (.call 0) (.device ⟨7, "tty"⟩), .answer (.call 0) .done, .startReading 0] =
      some connected := by
  rfl

theorem connected_idle (c : Caller) : (connected.tasks c).isSending = false := by
  have hcount : connected.session.connections = 1 := rfl
  rcases World.tasks_of_run connected_run c with habsent | ⟨id, op, rfl, hop⟩ | ⟨n, rfl, hn⟩
  · rw [habsent]
    rfl
  · simp only [List.mem_cons, List.not_mem_nil, or_false, Move.begin.injEq, reduceCtorEq] at hop
    rw [hop.1]
    rfl
  · rw [hcount, Nat.lt_one_iff] at hn
    rw [hn]
    rfl

/-- A loop that sends twice, and a send after it. -/
def twiceAndAgain : Job :=
  ⟨{ commands := #[.loop 2 2 1, .send "41" 2, .loopEnd 0 3, .send "4g" 4] }, "hex", "none"⟩

def twiceAndAgainStart : Scene :=
  ⟨connected, { running := true }, twiceAndAgain.plan.start, none⟩

def twiceAndAgainActs : List Act :=
  [.goOn, .goOn, .goOn, .goOn, .send 1, .move (.answer (.call 1) .done), .hear, .goOn, .goOn,
    .goOn, .goOn, .send 2, .move (.answer (.call 2) .done), .hear, .goOn, .goOn,
    .goOn, .goOn, .send 3, .hear]

theorem twiceAndAgain_calm (scene : Scene) : ∀ a ∈ twiceAndAgainActs, scene.Calm a := by
  simp [twiceAndAgainActs, Scene.Calm]

/-- Whether a script asks for something. -/
def asks : Script.Turn → Bool
  | .asks _ _ _ => true
  | .finished _ => false

/-- Until the last act the session is connected and the script asks for something. -/
theorem twiceAndAgain_goes {t : Nat} {scene : Scene} (ht : t < 20)
    (hscene : scene =
      Session.stateAt (Scene.act twiceAndAgain) twiceAndAgainStart twiceAndAgainActs t) :
    scene.world.session.phase = .connected ∧
      ∃ request stage q, scene.turn = .asks request stage q := by
  have hgoes : ∀ t < 20,
      let scene := Session.stateAt (Scene.act twiceAndAgain) twiceAndAgainStart twiceAndAgainActs t
      scene.world.session.phase = .connected ∧ asks scene.turn = true := by
    decide
  obtain ⟨hphase, hasks⟩ := hgoes t ht
  rw [← hscene] at hphase hasks
  refine ⟨hphase, ?_⟩
  cases hturn : scene.turn with
  | asks request stage q => exact ⟨request, stage, q, rfl⟩
  | finished result =>
    rw [hturn] at hasks
    cases hasks

theorem twiceAndAgain_ends : ∃ last,
    twiceAndAgainActs.foldlM (Scene.act twiceAndAgain) twiceAndAgainStart = some last ∧
    last.turn = .finished (.error (.sendFailed 3 4 (.hexPayload "4g"))) ∧
    last.world.session.phase = .connected ∧ payloads .sent last.world.history = [[0x41], [0x41]] ∧
    ∀ c, ¬ last.world.Ready c := by
  obtain ⟨last, hrun, hturn, hphase, hsent, hmoves, hcalls, hcount, hreads, hkept⟩ : ∃ last,
      twiceAndAgainActs.foldlM (Scene.act twiceAndAgain) twiceAndAgainStart = some last ∧
      last.turn = .finished (.error (.sendFailed 3 4 (.hexPayload "4g"))) ∧
      last.world.session.phase = .connected ∧
      payloads .sent last.world.history = [[0x41], [0x41]] ∧
      connected.run [.begin 1 (.sendData "41" "hex" "none"), .answer (.call 1) .done,
        .begin 2 (.sendData "41" "hex" "none"), .answer (.call 2) .done,
        .begin 3 (.sendData "4g" "hex" "none")] = some last.world ∧
      (∀ id ∈ [0, 1, 2, 3], ∃ result told,
        last.world.tasks (.call id) = .rests (.over result) told) ∧
      last.world.session.connections = 1 ∧
      last.world.tasks (.reader 0) =
        .rests (.askDevice (.read ⟨7, "tty"⟩) (.reading ⟨7, "tty"⟩)) false ∧
      last.world.cancelled 0 = false := by
    refine ⟨_, rfl, rfl, rfl, rfl, rfl, ?_, rfl, rfl, rfl⟩
    intro id hid
    simp only [List.mem_cons, List.not_mem_nil, or_false] at hid
    rcases hid with rfl | rfl | rfl | rfl <;> exact ⟨_, _, rfl⟩
  refine ⟨last, hrun, hturn, hphase, hsent, ?_⟩
  refine World.not_ready_of_run ((World.run_append connected_run).trans hmoves)
    (fun id op hop => hcalls id ?_) fun n hn => ?_
  · simp only [List.mem_append, List.mem_cons, List.not_mem_nil, or_false, Move.begin.injEq,
      reduceCtorEq, false_or] at hop ⊢
    omega
  · rw [hcount, Nat.lt_one_iff] at hn
    rw [hn]
    exact World.not_ready_of_reading hreads hkept

/-- A script of which the last value is not valid: what its loop sends is written, and the run ends
with the place of that value. -/
theorem script_transmitted_invalid :
    ∃ p : Performance twiceAndAgain, p.scene 0 = twiceAndAgainStart ∧ p.Fair ∧ p.Undisturbed ∧
      p.Comes connected (.error (.sendFailed 3 4 (.hexPayload "4g"))) [[0x41], [0x41]] ∧
      p.act 18 = some (.send 3) ∧
      ∀ d, .asked (.call 3) (.write d []) ∉ (p.scene 20).world.history := by
  have hparse : Script.parse "LOOP 2\nSEND \"41\"\nEND\nSEND \"4g\"".toList =
      .ok [.loop 2 2 1, .send "41" 2, .loopEnd 0 3, .send "4g" 4] := by rfl
  have hending : "none" ∈ ["none", "LF", "CR", "CRLF"] := List.mem_cons_self
  have hidle : ({} : Runner).running = false := rfl
  obtain ⟨b, ready, job, note, _, hunique, hstart, hruns⟩ :=
    script_transmitted hparse nofun (Or.inr rfl) hending hidle
  obtain rfl := hunique (.loop 2 1 (.send "41" 2 .done) 3 (.send "4g" 4 .done)) rfl
  have hjob : ready = { running := true } ∧ job = twiceAndAgain := by
    cases hstart
    exact ⟨rfl, rfl⟩
  obtain ⟨rfl, rfl⟩ := hjob
  obtain ⟨last, hrun, hturn, hphase, hsent, hrest⟩ := twiceAndAgain_ends
  have hreach : connected.Reachable := ⟨{}, Double.zero, _, connected_run⟩
  let p : Performance twiceAndAgain :=
    .ofActs twiceAndAgainStart last twiceAndAgainActs hreach hrun
  have hlate : ∀ t, 20 ≤ t → p.scene t = last := fun t ht => Session.stateAt_late hrun ht
  have hfair : p.Fair := by
    refine Performance.fair_ofActs hreach hrun hrest ?_
    rintro ⟨a, hrunners, hact⟩
    cases a <;> simp [Act.isRunners, Scene.act, hturn] at hrunners hact
  have hcalm : p.Undisturbed := by
    refine ⟨fun t _ => ?_, fun t a _ hact => ?_, connected_idle⟩
    · by_cases ht : t < 20
      · exact (twiceAndAgain_goes ht rfl).1
      · rw [hlate t (Nat.le_of_not_lt ht)]
        exact hphase
    · exact twiceAndAgain_calm _ a (List.mem_of_getElem? hact)
  obtain ⟨hcomes, hwrites⟩ := hruns connected p rfl
  obtain ⟨before, i, first, line, after, written, _, _, _, _, hends, _⟩ :=
    (hcomes (by decide) hcalm).2 rfl "4g" 4 (by decide) (by decide)
  have hgoes : p.Goes 20 := fun s hs => (twiceAndAgain_goes hs rfl).2
  have hlast : p.scene 20 = last := hlate 20 (Nat.le_refl 20)
  obtain ⟨houtcome, _, d, new, _, hnew, _, _, hlogged⟩ :=
    hends.only 20 _ hgoes (hlast ▸ hturn)
  cases houtcome
  rw [hlast] at hnew
  rw [hnew, Session.payloads_append, hlogged] at hsent
  obtain rfl : written = [[0x41], [0x41]] := hsent
  have hsend : p.act 18 = some (.send 3) := rfl
  exact ⟨p, rfl, hfair, hcalm, hends, hsend, (hwrites 18 3 hsend 20 (by decide)).2⟩

end SerialConsole.Running
