import Mathlib.Data.List.Induction
import SoundRouting.Proofs.Refinement
/-!
The log of a card is a complete account of it.

Several mixers may be open on one card. Some of them have not looked at it for a while, their writes may be refused,
and controls are added and created in between. None of this escapes the log: put into the controls as they came to
the card, its records give what the controls hold, and they tell which of the created controls exist.
-/
namespace SoundRouting

structure Contents where
  ints : List Int
  bytes : List UInt8
  deriving DecidableEq, Repr

def LiveControl.contents (c : LiveControl) : Contents :=
  ⟨c.ints, c.bytes⟩

namespace Contents

/-- What a control holds behind a logged write, whatever it held: nothing is checked any more. -/
def put (spec : Control) (held : Contents) : WriteOp → Contents
  | .value index value =>
    if spec.type = .bytes then { held with bytes := held.bytes.set index (UInt8.ofNat value.toNat) }
    else { held with ints := held.ints.set index value }
  | .item name => { held with ints := List.replicate held.ints.length (spec.items.idxOf name : Int) }
  | .bytes data => { held with bytes := data ++ held.bytes.drop data.length }

def note (spec : Control) (held : Contents) (r : WriteRecord) : Contents :=
  if r.control = spec.name then held.put spec r.op else held

def replay (spec : Control) (held : Contents) (log : List WriteRecord) : Contents :=
  log.foldl (note spec) held

theorem replay_append_singleton (spec : Control) (held : Contents) (log : List WriteRecord) (r : WriteRecord) :
    held.replay spec (log ++ [r]) = note spec (held.replay spec log) r :=
  List.foldl_append

/-- A log that does not name the control says nothing about it. -/
theorem replay_of_unnamed {spec : Control} {log : List WriteRecord} (h : ∀ r ∈ log, r.control ≠ spec.name)
    (held : Contents) : held.replay spec log = held := by
  induction log with
  | nil => rfl
  | cons r more ih =>
    rw [List.forall_mem_cons] at h
    rw [replay, List.foldl_cons, note, if_neg h.1]
    exact ih h.2

/-- A write that the control takes puts into it what the record says. -/
theorem put_of_write {c d : LiveControl} {op : WriteOp} (h : c.write op = .ok d) :
    d.contents = c.contents.put c.spec op := by
  rcases LiveControl.write_eq_ok_iff.mp h with ⟨-, -, -⟩ | ⟨-, hitem⟩ | ⟨-, -⟩
  · simp only [LiveControl.setElement, put]
    split <;> rfl
  · obtain ⟨-, rfl⟩ := List.findIdx?_eq_some_iff_findIdx_eq.mp hitem
    simp only [LiveControl.contents, put, List.map_const', List.idxOf]
  · rfl

end Contents

/-- What a program does with a card: mixers go by the order in which they were opened. -/
inductive Act where
  | openMixer
  | rescan (mixer : Nat)
  | write (mixer id : Nat) (op : WriteOp)
  | add (spec : Control)
  deriving DecidableEq, Repr

def Act.added : List Act → List Control :=
  List.filterMap fun
    | .add spec => some spec
    | _ => none

structure Bench where
  card : Card
  mixers : List Mixer
  deriving DecidableEq, Repr

namespace Bench

/-- Does one thing and says whether it was refused. Nothing comes of a mixer that has not been opened. -/
def act (b : Bench) : Act → Bench × Except Error Unit
  | .openMixer =>
    let (mixer, card) := b.card.openMixer
    (⟨card, b.mixers ++ [mixer]⟩, .ok ())
  | .rescan k => ({ b with mixers := b.mixers.modify k fun m => m.rescan b.card }, .ok ())
  | .write k id op =>
    match b.mixers[k]? with
    | none => (b, .ok ())
    | some m => match m.write b.card id op with
      | .ok card => ({ b with card := card }, .ok ())
      | .error e => (b, .error e)
  | .add spec => ({ b with card := b.card.addControl spec }, .ok ())

def run (b : Bench) (acts : List Act) : Bench :=
  acts.foldl (fun b a => (b.act a).1) b

/-- Nothing but a write through an open mixer is ever refused, and then nothing has changed. -/
theorem eq_of_refused {b : Bench} {a : Act} {e : Error} (h : (b.act a).2 = .error e) : (b.act a).1 = b := by
  cases a with
  | openMixer | rescan | add => cases h
  | write k id op =>
    simp only [act] at h ⊢
    split
    · rfl
    · rename_i m hm
      simp only [hm] at h
      split
      · rename_i card hcard
        rw [hcard] at h
        cases h
      · rfl

/-- What can become of the card: its controls and its log stay, it takes a write, or it gets a control. -/
theorem act_cases (b : Bench) (a : Act) :
    (Act.added [a] = [] ∧ (b.act a).1.card.controls = b.card.controls ∧ (b.act a).1.card.log = b.card.log)
      ∨ (Act.added [a] = [] ∧ ∃ id op, b.card.write id op = .ok (b.act a).1.card)
      ∨ ∃ spec, a = .add spec ∧ (b.act a).1.card = b.card.addControl spec := by
  cases a with
  | openMixer | rescan => exact Or.inl ⟨rfl, rfl, rfl⟩
  | add spec => exact Or.inr (Or.inr ⟨spec, rfl, rfl⟩)
  | write k id op =>
    simp only [act]
    split
    · exact Or.inl ⟨rfl, rfl, rfl⟩
    · split
      · rename_i m hm card hcard
        rw [Mixer.write] at hcard
        split at hcard
        · exact Or.inr (Or.inl ⟨rfl, id, op, hcard⟩)
        · cases hcard
      · exact Or.inl ⟨rfl, rfl, rfl⟩

theorem run_append (b : Bench) (acts more : List Act) : b.run (acts ++ more) = (b.run acts).run more :=
  List.foldl_append

theorem run_concat (b : Bench) (acts : List Act) (a : Act) : b.run (acts ++ [a]) = ((b.run acts).act a).1 :=
  run_append b acts [a]

end Bench

namespace Card

def holdings (card : Card) : List (Control × Contents) :=
  card.controls.map fun c => (c.spec, c.contents)

/-- With distinct names, a write concerns the control that is written, as its record says, and no other. -/
theorem holdings_write {card changed : Card} (hnames : card.names.Nodup) {id : Nat} {op : WriteOp}
    (h : card.write id op = .ok changed) :
    ∃ c, card.control? id = some c ∧ changed.log = card.log ++ [⟨c.spec.name, op⟩]
      ∧ changed.holdings = card.holdings.map fun k => (k.1, k.2.note k.1 ⟨c.spec.name, op⟩) := by
  obtain ⟨c, d, hc, hd, rfl⟩ := write_eq_ok_iff.mp h
  have hget := (control?_eq_some_iff.mp hc).1
  refine ⟨c, hc, rfl, List.ext_getElem? fun j => ?_⟩
  simp only [holdings, List.getElem?_map, getElem?_write hc]
  by_cases hj : j = id
  · subst hj
    simp only [if_true, hget, Option.map_some, spec_appear, Contents.note, (LiveControl.spec_write hd).1]
    rw [← Contents.put_of_write hd]
    rfl
  · rw [if_neg hj]
    cases hk : card.controls[j]? with
    | none => rfl
    | some k =>
      have hne : c.spec.name ≠ k.spec.name := by
        intro hname
        have hlt : id < card.names.length := by
          rw [names, List.length_map]
          exact (List.getElem?_eq_some_iff.mp hget).1
        refine hj ((List.getElem?_inj hlt hnames).mp ?_).symm
        rw [names, List.getElem?_map, List.getElem?_map, hget, hk, Option.map_some, Option.map_some, hname]
      simp only [Option.map_some, spec_appear, Contents.note, if_neg hne]
      rfl

/-- The log accounts for what the controls hold that came to the card as `initial`, and names only controls that
are there. -/
structure Accounted (initial : List LiveControl) (card : Card) : Prop where
  holdings : card.holdings = initial.map fun c => (c.spec, c.contents.replay c.spec card.log)
  named : ∀ r ∈ card.log, r.control ∈ card.names

variable {initial : List LiveControl} {card changed : Card}

/-- A card with an empty log accounts for itself. -/
theorem accounted_of_log_eq_nil (h : card.log = []) : card.Accounted card.controls := by
  constructor
  · rw [h]
    rfl
  · rw [h]
    exact fun r hr => absurd hr List.not_mem_nil

theorem Accounted.of_same (h : card.Accounted initial) (hcontrols : changed.controls = card.controls)
    (hlog : changed.log = card.log) : changed.Accounted initial := by
  obtain ⟨hholdings, hnamed⟩ := h
  rw [Card.holdings, ← hcontrols, ← hlog] at hholdings
  rw [names, ← hcontrols, ← hlog] at hnamed
  exact ⟨hholdings, hnamed⟩

theorem Accounted.write (h : card.Accounted initial) (hnames : card.names.Nodup) {id : Nat} {op : WriteOp}
    (hw : card.write id op = .ok changed) : changed.Accounted initial := by
  obtain ⟨c, hc, hlog, hholdings⟩ := holdings_write hnames hw
  constructor
  · simp only [hholdings, h.holdings, hlog, List.map_map, Contents.replay_append_singleton]
    rfl
  · intro r hr
    rw [names_write hw]
    rw [hlog] at hr
    rcases List.mem_append.mp hr with hold | hnew
    · exact h.named r hold
    · rw [List.mem_singleton.mp hnew]
      exact List.mem_map.mpr ⟨c, List.mem_of_getElem? (control?_eq_some_iff.mp hc).1, rfl⟩

theorem names_addControl (card : Card) (spec : Control) : (card.addControl spec).names = card.names ++ [spec.name] :=
  List.map_append

/-- A control that comes with a new name has not been written before. -/
theorem Accounted.addControl (h : card.Accounted initial) {spec : Control}
    (hnames : (card.addControl spec).names.Nodup) :
    (card.addControl spec).Accounted (initial ++ [LiveControl.start spec]) := by
  rw [names_addControl] at hnames
  have hnew : ∀ r ∈ card.log, r.control ≠ spec.name := fun r hr =>
    (List.nodup_append.mp hnames).2.2 _ (h.named r hr) _ (List.mem_singleton.mpr rfl)
  constructor
  · have hlog : (card.addControl spec).log = card.log := rfl
    have hspec : (LiveControl.start spec).spec = spec := rfl
    rw [List.map_append, hlog, ← h.holdings, List.map_singleton, hspec, Contents.replay_of_unnamed hnew]
    exact List.map_append
  · intro r hr
    rw [names_addControl]
    exact List.mem_append_left _ (h.named r hr)

end Card

namespace Bench

variable {start : Card}

/-- What follows for the card after all from what one act makes of it: the acts are taken in from the last one. -/
theorem accounted_run (hlog : start.log = []) (acts : List Act)
    (hnames : (run ⟨start, []⟩ acts).card.names.Nodup) :
    (run ⟨start, []⟩ acts).card.Accounted (start.controls ++ (Act.added acts).map LiveControl.start) := by
  induction acts using List.reverseRecOn with
  | nil =>
    rw [Act.added, List.filterMap_nil, List.map_nil, List.append_nil]
    exact Card.accounted_of_log_eq_nil hlog
  | append_singleton acts a ih =>
    have hadded : Act.added (acts ++ [a]) = Act.added acts ++ Act.added [a] := List.filterMap_append
    rw [run_concat] at hnames ⊢
    rw [hadded]
    rcases act_cases (run ⟨start, []⟩ acts) a with ⟨hnone, hcontrols, hsame⟩ | ⟨hnone, id, op, hw⟩ | ⟨spec, rfl, hcard⟩
    · rw [hnone, List.append_nil]
      refine (ih ?_).of_same hcontrols hsame
      rwa [Card.names, ← hcontrols]
    · rw [hnone, List.append_nil]
      have hbefore := Card.names_write hw ▸ hnames
      exact (ih hbefore).write hbefore hw
    · rw [hcard] at hnames ⊢
      have hbefore := (List.nodup_append.mp (Card.names_addControl _ _ ▸ hnames)).1
      have hmore := (ih hbefore).addControl hnames
      rwa [List.append_assoc, ← List.map_singleton, ← List.map_append] at hmore

/-- Whatever is done, the log grows at its end, and a control exists afterwards if it did or if what was logged since
creates it. -/
theorem present_run (b : Bench) (acts : List Act) :
    ∃ later, (b.run acts).card.log = b.card.log ++ later ∧ ∀ (id : Nat) (c : LiveControl), b.card.controls[id]? = some c →
      ∃ d, (b.run acts).card.controls[id]? = some d ∧ d.spec = c.spec
        ∧ (d.present = true ↔ c.present = true ∨ ∃ r ∈ later, c.spec.createdBy = some r.control) := by
  induction acts using List.reverseRecOn with
  | nil => exact ⟨[], (List.append_nil _).symm, fun id c hc => ⟨c, hc, rfl, by simp⟩⟩
  | append_singleton acts a ih =>
    obtain ⟨later, hlater, hcontrols⟩ := ih
    rw [run_concat]
    rcases act_cases (b.run acts) a with ⟨-, hsame, hlog⟩ | ⟨-, id, op, hw⟩ | ⟨spec, rfl, hcard⟩
    · rw [hlog, hsame]
      exact ⟨later, hlater, hcontrols⟩
    · obtain ⟨r, hlog, hwritten⟩ := Card.present_write hw
      refine ⟨later ++ [r], by rw [hlog, hlater, List.append_assoc], fun j c hc => ?_⟩
      obtain ⟨d, hd, hspec, hpresent⟩ := hcontrols j c hc
      obtain ⟨l, hl, hlspec, hlpresent⟩ := hwritten j d hd
      refine ⟨l, hl, hlspec.trans hspec, ?_⟩
      rw [hlpresent, hpresent, hspec]
      simp only [List.mem_append, List.mem_singleton, or_and_right, exists_or, exists_eq_left, or_assoc]
    · refine ⟨later, hcard ▸ hlater, fun id c hc => ?_⟩
      obtain ⟨d, hd, hspec, hpresent⟩ := hcontrols id c hc
      refine ⟨d, ?_, hspec, hpresent⟩
      rw [hcard, Card.addControl, List.getElem?_append_left (List.getElem?_eq_some_iff.mp hd).1, hd]

/-- A control that comes not yet created waits for a record with the name of its trigger. -/
theorem created_iff {c : LiveControl} (hstart : c.present = c.spec.createdBy.isNone) {trigger : String}
    (htrigger : c.spec.createdBy = some trigger) (log : List WriteRecord) :
    (c.present = true ∨ ∃ r ∈ log, c.spec.createdBy = some r.control) ↔ ∃ r ∈ log, r.control = trigger := by
  simp only [hstart, htrigger, Option.isNone_some, Bool.false_eq_true, false_or, Option.some.injEq, eq_comm]

/-- What the log of a card tells after a program has done with it what it did: nothing that was refused left a trace,
the records give what every control holds, and those that came after a control tell whether it has been created. -/
structure Accounts (start : Card) (acts : List Act) : Prop where
  refused : ∀ before a after e, acts = before ++ a :: after → ((run ⟨start, []⟩ before).act a).2 = .error e →
    run ⟨start, []⟩ (before ++ [a]) = run ⟨start, []⟩ before
  holdings : (run ⟨start, []⟩ acts).card.holdings
    = (start.controls ++ (Act.added acts).map LiveControl.start).map fun c =>
        (c.spec, c.contents.replay c.spec (run ⟨start, []⟩ acts).card.log)
  created : ∀ (id : Nat) (c : LiveControl), start.controls[id]? = some c → ∀ trigger, c.spec.createdBy = some trigger →
    ∃ d, (run ⟨start, []⟩ acts).card.controls[id]? = some d ∧ d.spec = c.spec
      ∧ (d.present = true ↔ ∃ r ∈ (run ⟨start, []⟩ acts).card.log, r.control = trigger)
  createdLater : ∀ before spec after, acts = before ++ .add spec :: after → ∀ trigger, spec.createdBy = some trigger →
    ∃ later, (run ⟨start, []⟩ acts).card.log = (run ⟨start, []⟩ before).card.log ++ later
      ∧ ∃ d, (run ⟨start, []⟩ acts).card.controls[(run ⟨start, []⟩ before).card.controls.length]? = some d
        ∧ d.spec = spec ∧ (d.present = true ↔ ∃ r ∈ later, r.control = trigger)

/-- On a card that nobody has written to, whose controls keep distinct names, the log is a complete account. -/
theorem log_accounts (hlog : start.log = []) (hstart : ∀ c ∈ start.controls, c.present = c.spec.createdBy.isNone)
    (acts : List Act) (hnames : (run ⟨start, []⟩ acts).card.names.Nodup) : Accounts start acts where
  refused := fun before a after e _ he => by
    rw [run_concat]
    exact eq_of_refused he
  holdings := (accounted_run hlog acts hnames).holdings
  created := fun id c hc trigger htrigger => by
    obtain ⟨later, hlater, hcontrols⟩ := present_run ⟨start, []⟩ acts
    obtain ⟨d, hd, hspec, hpresent⟩ := hcontrols id c hc
    rw [hlater, hlog, List.nil_append]
    exact ⟨d, hd, hspec, hpresent.trans (created_iff (hstart c (List.mem_of_getElem? hc)) htrigger later)⟩
  createdLater := fun before spec after hacts trigger htrigger => by
    subst hacts
    obtain ⟨later, hlater, hcontrols⟩ := present_run ((run ⟨start, []⟩ before).act (.add spec)).1 after
    have hrun : run ⟨start, []⟩ (before ++ .add spec :: after)
        = run ((run ⟨start, []⟩ before).act (.add spec)).1 after := run_append _ _ _
    obtain ⟨d, hd, hspec, hpresent⟩ := hcontrols (run ⟨start, []⟩ before).card.controls.length
      (LiveControl.start spec) List.getElem?_concat_length
    rw [hrun]
    refine ⟨later, hlater, d, hd, hspec, ?_⟩
    exact hpresent.trans (created_iff rfl htrigger later)

/-- A card on which writing the switch creates the gain. -/
def gateCard : Card :=
  .ofControls 0 none [.bytes "Coeffs" 3, .switch "Gate" 1, (Control.integer "Gain" 2 0 9).appearingWith "Gate"]

/-- Two mixers, of which the second does not know the gain when it first writes to it, and a second control that
the switch creates only when it is written once more. -/
def gateActs : List Act :=
  [.openMixer, .openMixer, .write 0 0 (.bytes [7, 8]), .write 0 1 (.value 0 1), .write 1 2 (.value 1 5), .rescan 1,
    .add ((Control.enumerated "Mode" ["off", "on"]).appearingWith "Gate"), .write 1 2 (.value 1 10),
    .write 1 2 (.value 1 5), .write 0 1 (.value 0 0), .rescan 0, .write 0 3 (.item "on")]

theorem log_accounts_gate : gateCard.log = []
    ∧ (∀ c ∈ gateCard.controls, c.present = c.spec.createdBy.isNone)
    ∧ (run ⟨gateCard, []⟩ gateActs).card.names.Nodup
    ∧ Accounts gateCard gateActs
    ∧ (run ⟨gateCard, []⟩ gateActs).card.log = [⟨"Coeffs", .bytes [7, 8]⟩, ⟨"Gate", .value 0 1⟩, ⟨"Gain", .value 1 5⟩,
        ⟨"Gate", .value 0 0⟩, ⟨"Mode", .item "on"⟩] := by
  have hlog : gateCard.log = [] := rfl
  have hstart : ∀ c ∈ gateCard.controls, c.present = c.spec.createdBy.isNone := by decide
  have hnames : (run ⟨gateCard, []⟩ gateActs).card.names.Nodup := by decide +kernel
  exact ⟨hlog, hstart, hnames, log_accounts hlog hstart gateActs hnames, by decide +kernel⟩

end Bench

end SoundRouting
