import SerialConsole.Device.Ports
import SerialConsole.Proofs.Text.Order

set_option autoImplicit false

/-!
# The choice of a port

A hint means the port that it names in full, else the only port that it fits, else a device that is
not listed. Without a hint the only port is meant. Nothing is chosen where several ports could be
meant, and the order in which the ports are found is never seen (`choose_unambiguous`).
-/
namespace SerialConsole.Port

variable {ports others : List Port} {port other : Port} {hint : String}

/-- A text holds the hint, both taken in small letters. -/
def Mentions (hint text : String) : Prop :=
  Text.lower hint.toList <:+: Text.lower text.toList

/-- One of the three texts of a port holds the hint. -/
def Matches (hint : String) (port : Port) : Prop :=
  Mentions hint port.device ∨ Mentions hint port.description ∨ Mentions hint port.hardware

/-- No device is chosen. -/
def NoDevice (chosen : Except Fault String) : Prop :=
  ∃ fault, chosen = .error fault ∧ fault.kind = .unavailable

theorem fits_iff : fits hint port = true ↔ Matches hint port := by
  rw [fits, Bool.or_eq_true, Bool.or_eq_true, holds, holds, holds, Text.contains_iff,
    Text.contains_iff, Text.contains_iff, Matches, or_assoc]
  rfl

/-! ## The order of the ports -/

theorem perm_sorted (ports : List Port) : (sorted ports).Perm ports :=
  Text.perm_sortOn Port.device ports

theorem mem_sorted : port ∈ sorted ports ↔ port ∈ ports :=
  (perm_sorted ports).mem_iff

theorem sorted_singleton (port : Port) : sorted [port] = [port] :=
  List.perm_singleton.1 (perm_sorted [port])

theorem nodup_sorted (hdistinct : (ports.map Port.device).Nodup) : (sorted ports).Nodup :=
  (perm_sorted ports).nodup_iff.2 (List.Nodup.of_map Port.device hdistinct)

theorem sorted_eq_of_perm (hperm : others.Perm ports) (hdistinct : (ports.map Port.device).Nodup) :
    sorted others = sorted ports :=
  Text.sortOn_eq_of_perm Port.device hperm hdistinct

/-! ## With a hint -/

theorem chooseBy_exact (h : hint ∈ ports.map Port.device) :
    chooseBy ports hint = .ok hint := by
  obtain ⟨port, hmem, hdevice⟩ := List.mem_map.1 h
  rw [chooseBy, if_pos (List.any_eq_true.2 ⟨port, hmem, by simpa using hdevice⟩)]

/-- Without a port of that very name, what counts are the ports that the hint fits. -/
theorem chooseBy_partial (h : hint ∉ ports.map Port.device) :
    chooseBy ports hint =
      match ports.filter (fits hint) with
      | [] => .ok hint
      | [port] => .ok port.device
      | several => .error (.severalMatches hint (several.map title)) := by
  have hnone : ¬ (ports.any fun port => port.device = hint) = true := by
    intro hany
    obtain ⟨port, hmem, hdevice⟩ := List.any_eq_true.1 hany
    exact h (List.mem_map.2 ⟨port, hmem, by simpa using hdevice⟩)
  unfold chooseBy
  exact if_neg hnone

theorem chooseBy_none (h : hint ∉ ports.map Port.device)
    (hnone : ∀ port ∈ ports, ¬ Matches hint port) : chooseBy ports hint = .ok hint := by
  have hfound : ports.filter (fits hint) = [] :=
    List.filter_eq_nil_iff.2 fun port hmem => by
      rw [fits_iff]
      exact hnone port hmem
  rw [chooseBy_partial h, hfound]

theorem chooseBy_one (hnodup : ports.Nodup) (h : hint ∉ ports.map Port.device)
    (hmem : port ∈ ports) (hmatch : Matches hint port)
    (honly : ∀ other ∈ ports, Matches hint other → other = port) :
    chooseBy ports hint = .ok port.device := by
  have hfound : ports.filter (fits hint) = [port] := by
    refine List.perm_singleton.1 ((List.perm_ext_iff_of_nodup (hnodup.filter _)
      (List.nodup_singleton port)).2 fun other => ?_)
    rw [List.mem_filter, fits_iff, List.mem_singleton]
    exact ⟨fun ⟨hother, hfits⟩ => honly other hother hfits, fun hsame => hsame ▸ ⟨hmem, hmatch⟩⟩
  rw [chooseBy_partial h, hfound]

theorem chooseBy_several (h : hint ∉ ports.map Port.device) (hmem : port ∈ ports)
    (hother : other ∈ ports) (hmatch : Matches hint port) (hmatches : Matches hint other)
    (hne : port ≠ other) : NoDevice (chooseBy ports hint) := by
  have hfirst : port ∈ ports.filter (fits hint) := List.mem_filter.2 ⟨hmem, fits_iff.2 hmatch⟩
  have hsecond : other ∈ ports.filter (fits hint) := List.mem_filter.2 ⟨hother, fits_iff.2 hmatches⟩
  rw [chooseBy_partial h]
  match hfound : ports.filter (fits hint) with
  | [] =>
    rw [hfound] at hfirst
    cases hfirst
  | [only] =>
    rw [hfound, List.mem_singleton] at hfirst hsecond
    exact absurd (hfirst.trans hsecond.symm) hne
  | _ :: _ :: _ => exact ⟨_, rfl, rfl⟩

/-! ## Without a hint -/

theorem chooseOnly_several (h : ports.length ≠ 1) : NoDevice (chooseOnly ports) := by
  match ports, h with
  | [], _ => exact ⟨_, rfl, rfl⟩
  | [_], h => exact absurd rfl h
  | _ :: _ :: _, _ => exact ⟨_, rfl, rfl⟩

/-! ## Every choice -/

theorem choose_hint (hsome : hint ≠ "") :
    choose ports (some hint) = chooseBy (sorted ports) hint := by
  rw [choose, if_neg hsome]

theorem choose_no_hint {hint : Option String} (h : hint = none ∨ hint = some "") :
    choose ports hint = chooseOnly (sorted ports) := by
  rcases h with rfl | rfl <;> rfl

/-- Ports with different names. A hint that is one of the names means that port; any other hint means
the only port with a text that holds it, the hint itself if there is no such port, and nothing if
there are several. No hint, or an empty one, means the only port, and nothing if there are none or
several. Found in another order, the same ports lead to the same device or the same fault. -/
theorem choose_unambiguous (hdistinct : (ports.map Port.device).Nodup) :
    (∀ hint, hint ≠ "" →
      (hint ∈ ports.map Port.device → choose ports (some hint) = .ok hint) ∧
        (hint ∉ ports.map Port.device →
          (∀ port ∈ ports, Matches hint port →
            (∀ other ∈ ports, Matches hint other → other = port) →
              choose ports (some hint) = .ok port.device) ∧
            ((∀ port ∈ ports, ¬ Matches hint port) → choose ports (some hint) = .ok hint) ∧
            ∀ port ∈ ports, ∀ other ∈ ports, Matches hint port → Matches hint other →
              port ≠ other → NoDevice (choose ports (some hint)))) ∧
      (∀ hint, hint = none ∨ hint = some "" →
        (∀ port, ports = [port] → choose ports hint = .ok port.device) ∧
          (ports.length ≠ 1 → NoDevice (choose ports hint))) ∧
      ∀ others hint, others.Perm ports → choose others hint = choose ports hint := by
  have hnames (name : String) : name ∈ (sorted ports).map Port.device ↔ name ∈ ports.map Port.device :=
    ((perm_sorted ports).map Port.device).mem_iff
  refine ⟨fun hint hsome => ?_, fun hint hnone => ?_, fun others hint hperm => ?_⟩
  · rw [choose_hint hsome, ← hnames]
    refine ⟨chooseBy_exact, fun hpart => ⟨fun port hmem hmatch honly => ?_, fun hnone => ?_,
      fun port hmem other hother hmatch hmatches hne => ?_⟩⟩
    · exact chooseBy_one (nodup_sorted hdistinct) hpart (mem_sorted.2 hmem) hmatch
        fun other hother => honly other (mem_sorted.1 hother)
    · exact chooseBy_none hpart fun port hmem => hnone port (mem_sorted.1 hmem)
    · exact chooseBy_several hpart (mem_sorted.2 hmem) (mem_sorted.2 hother) hmatch hmatches hne
  · rw [choose_no_hint hnone]
    refine ⟨fun port hports => ?_, fun hcount => chooseOnly_several ?_⟩
    · rw [hports, sorted_singleton, chooseOnly]
    · rwa [(perm_sorted ports).length_eq]
  · have hsorted := sorted_eq_of_perm hperm hdistinct
    cases hint with
    | none => rw [choose, choose, hsorted]
    | some hint => rw [choose, choose, hsorted]

def consolePort : Port :=
  ⟨"ttyS10", "Console", ""⟩

/-- A port whose name begins the name of another. -/
def modemPort : Port :=
  ⟨"ttyS1", "Modem", "USB"⟩

theorem choose_unambiguous_overlapping :
    choose [consolePort, modemPort] (some "ttyS1") = .ok "ttyS1" ∧
      choose [consolePort, modemPort] (some "MODEM") = .ok "ttyS1" ∧
      choose [consolePort, modemPort] (some "ttyS2") = .ok "ttyS2" ∧
      NoDevice (choose [consolePort, modemPort] (some "TTYS1")) ∧
      NoDevice (choose [consolePort, modemPort] none) ∧
      choose [modemPort, consolePort] (some "TTYS1") =
        choose [consolePort, modemPort] (some "TTYS1") := by
  have hdistinct : ([consolePort, modemPort].map Port.device).Nodup := by decide
  obtain ⟨hhint, hnone, horder⟩ := choose_unambiguous hdistinct
  have hmodem : ∀ other ∈ [consolePort, modemPort], Matches "MODEM" other → other = modemPort := by
    simp only [← fits_iff]
    decide +kernel
  have hother : ∀ port ∈ [consolePort, modemPort], ¬ Matches "ttyS2" port := by
    simp only [← fits_iff]
    decide +kernel
  have hfits (port : Port) (hmem : port ∈ [consolePort, modemPort]) : Matches "TTYS1" port := by
    simp only [← fits_iff]
    revert port
    decide +kernel
  obtain ⟨hexact, _⟩ := hhint "ttyS1" (by decide)
  obtain ⟨_, hpart⟩ := hhint "MODEM" (by decide)
  obtain ⟨_, hunlisted⟩ := hhint "ttyS2" (by decide)
  obtain ⟨_, hshared⟩ := hhint "TTYS1" (by decide)
  refine ⟨hexact (by decide), ?_, ?_, ?_, (hnone none (Or.inl rfl)).2 (by decide),
    horder _ _ (List.Perm.swap _ _ _)⟩
  · exact (hpart (by decide)).1 modemPort (by decide) (fits_iff.1 (by decide +kernel)) hmodem
  · exact (hunlisted (by decide)).2.1 hother
  · exact (hshared (by decide)).2.2 consolePort (by decide) modemPort (by decide)
      (hfits _ (by decide)) (hfits _ (by decide)) (by decide)

end SerialConsole.Port
