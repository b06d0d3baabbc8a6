import SoundRouting.Proofs.Refinement
/-!
Histories of a mixer, and what its assignments were declared as.

While a mixer is open, the card is written by it and by others, and gets new controls; assignments are
bound and applied on it, and are kept as they are left. However that went, an assignment still stands for
what it was declared to, so that a list of assignments makes of the card what their declarations say.
-/
namespace SoundRouting

namespace Card

inductive Event : Card → Card → Prop
  | added (card : Card) (spec : Control) : Event card (card.addControl spec)
  | written {card changed : Card} {id : Nat} {op : WriteOp} (h : card.write id op = .ok changed) :
      Event card changed
  | preset (card : Card) (name : String) (data : List UInt8) : Event card (card.presetBytes name data)
  | drained (card : Card) : Event card card.drainLog.2
  | opened (card : Card) : Event card card.openMixer.2

/-- A card as it can be: built from nothing, with whatever has happened to it. -/
inductive Built : Card → Prop
  | blank (number : Nat) (id : Option String) : Built (blank number id)
  | event {card changed : Card} (h : Built card) (he : Event card changed) : Built changed

theorem Event.grows {c d : Card} (h : Event c d) : Grows c d := by
  cases h with
  | added spec =>
    refine ⟨rfl, fun id k hk => ⟨k, ?_, rfl, fun h => h⟩⟩
    rw [addControl, List.getElem?_append_left (List.getElem?_eq_some_iff.mp hk).1, hk]
  | written h => exact grows_write h
  | preset name data =>
    rw [presetBytes]
    split
    · exact Grows.refl c
    · rename_i i hi
      refine ⟨rfl, fun id k hk => ?_⟩
      simp only [List.getElem?_modify, hk]
      by_cases hid : i = id
      · exact ⟨_, rfl, by simp [hid], by simp [hid]⟩
      · exact ⟨k, by simp [hid], rfl, fun h => h⟩
  | drained | opened => exact ⟨rfl, fun _ k hk => ⟨k, hk, rfl, fun h => h⟩⟩

theorem Event.sized {c d : Card} (h : Event c d) (hsized : c.Sized) : d.Sized := by
  cases h with
  | added spec =>
    intro k hk htype
    rw [addControl, List.mem_append, List.mem_singleton] at hk
    rcases hk with hk | rfl
    · exact hsized k hk htype
    · simp only [LiveControl.start] at htype ⊢
      have hfits : (spec.data.take spec.count).length ≤ (List.replicate spec.count (0 : UInt8)).length := by
        rw [List.length_take, List.length_replicate]
        exact Nat.min_le_left _ _
      rw [if_pos htype, LiveControl.length_overlay _ _ hfits, List.length_replicate]
  | written h => exact sized_write hsized h
  | preset name data =>
    rw [presetBytes]
    split
    · exact hsized
    · rename_i i hi
      intro k hk htype
      obtain ⟨j, hj⟩ := List.mem_iff_getElem?.mp hk
      rw [List.getElem?_modify, Option.map_eq_map, Option.map_eq_some_iff] at hj
      obtain ⟨l, hl, rfl⟩ := hj
      have hmem := List.mem_of_getElem? hl
      by_cases hij : i = j
      · simp only [hij, if_true] at htype ⊢
        rw [LiveControl.length_overlay]
        · exact hsized l hmem htype
        · rw [List.length_take]
          omega
      · simp only [hij, if_false] at htype ⊢
        exact hsized l hmem htype
  | drained | opened => exact hsized

theorem Built.sized {card : Card} (h : Built card) : card.Sized := by
  induction h with
  | blank => intro c hc; cases hc
  | event _ he ih => exact he.sized ih

end Card

namespace Assignment

/-- What an assignment has become on a mixer: it is sound, and stands for what it was declared to. -/
structure Derived (disk : Disk) (desk : Desk) (declared current : Assignment) : Prop where
  control : current.control = declared.control
  settled : current.Settled desk
  stands : current = declared ∨ ∃ id c, desk.card.control? id = some c ∧ c.spec.name = declared.control
    ∧ ∀ l : LiveControl, l.spec = c.spec → current.writes? disk l = declared.writes? disk l

theorem derived_of_unresolved {a : Assignment} (h : a.binding = .unresolved) (disk : Disk) (desk : Desk) :
    Derived disk desk a a :=
  ⟨rfl, settled_of_unresolved h desk, Or.inl rfl⟩

theorem Derived.of_grows {disk : Disk} {desk later : Desk} {a b : Assignment} (h : Derived disk desk a b)
    (hgrows : Desk.Grows desk later) : Derived disk later a b := by
  refine ⟨h.control, h.settled.of_grows hgrows, h.stands.imp_right ?_⟩
  rintro ⟨id, c, hc, hname, hwrites⟩
  obtain ⟨l, hl, hspec⟩ := hgrows.card.control? hc
  exact ⟨id, l, hl, by rw [hspec, hname], fun k hk => hwrites k (hk.trans hspec)⟩

/-- At the control of its name, a derived assignment stands for what was declared. -/
theorem Derived.writes?_eq {disk : Disk} {desk : Desk} {a b : Assignment} (h : Derived disk desk a b)
    (hnames : desk.card.names.Nodup) {id : Nat} {c : LiveControl} (hc : desk.card.control? id = some c)
    (hname : c.spec.name = a.control) {l : LiveControl} (hl : l.spec = c.spec) :
    b.writes? disk l = a.writes? disk l := by
  rcases h.stands with rfl | ⟨id', c', hc', hname', hwrites⟩
  · rfl
  · have hid := Card.idOf?_of_control? hnames hc
    have hid' := Card.idOf?_of_control? hnames hc'
    rw [hname] at hid
    rw [hname', hid, Option.some.injEq] at hid'
    subst hid'
    obtain rfl : c = c' := Option.some.inj (hc.symm.trans hc')
    exact hwrites l hl

/-- Writing a value leaves what the assignment stands for as it was. -/
theorem writes?_writeValue (disk : Disk) (a : Assignment) (m : Mixer) (card : Card) (id : Nat)
    (c : LiveControl) :
    writes? disk { a with value := (m.writeValue card id a.index a.value).2 } c = a.writes? disk c := by
  obtain ⟨control, index, value, binding⟩ := a
  cases value with
  | pending | pendingFile | int | item => rfl
  | bytes block =>
    simp only [Mixer.writeValue, Mixer.writeBlock]
    split
    · rfl
    · split
      · rfl
      · split <;> simp only [writes?, Value.toInteger, Value.toItem, Value.toBytes] <;> split <;> rfl

end Assignment

namespace Desk

open Assignment

variable {disk : Disk} {desk : Desk}

theorem derived_bind (hsound : desk.Sound) (hnames : desk.card.names.Nodup) {a b : Assignment}
    (h : Derived disk desk a b) {m : Mixer} {bound : Assignment} {outcome : Except Error Unit}
    (hbind : desk.mixer.bind disk desk.card b = (m, bound, outcome)) :
    Derived disk ⟨desk.card, m⟩ a bound := by
  obtain ⟨-, hgrows, hcontrol, hsettled, -⟩ := bind_spec hsound disk h.settled hbind
  refine ⟨hcontrol.trans h.control, hsettled, ?_⟩
  cases hb : b.binding with
  | bound id type =>
    simp only [Mixer.bind, hb, Binding.isBound, if_true, Prod.mk.injEq] at hbind
    obtain ⟨-, rfl, -⟩ := hbind
    exact (h.of_grows hgrows).stands
  | unresolved =>
    obtain ⟨m', -, ⟨e, -, he⟩ | ⟨id, c, converted, o, -, -, hc, hname, hconvert, he⟩⟩ :=
      bind_of_unresolved hsound disk hb
    · rw [he] at hbind
      cases hbind
      exact (h.of_grows hgrows).stands
    · have hdeclared : c.spec.name = a.control := hname.trans h.control
      refine Or.inr ⟨id, c, hc, hdeclared, fun l hl => ?_⟩
      have hwrites := (writes?_convert hconvert l hl).1.trans (h.writes?_eq hnames hc hdeclared hl)
      rw [he] at hbind
      cases o with
      | error e =>
        cases hbind
        exact hwrites
      | ok u =>
        cases hbind
        exact hwrites

theorem derived_applyOne (hsound : desk.Sound) (hnames : desk.card.names.Nodup) {a b : Assignment}
    (h : Derived disk desk a b) :
    Derived disk (desk.applyOne disk b).1 a (desk.applyOne disk b).2.1 := by
  obtain ⟨-, hgrows, hcontrol, hsettled⟩ := applyOne_spec hsound disk h.settled
  refine ⟨hcontrol.trans h.control, hsettled, ?_⟩
  obtain ⟨m, c, outcome, hbind, -, -, -, -, he | ⟨id, k, type, -, hk, hname, he⟩⟩ :=
    applyOne_cases hsound disk h.settled
  · rw [he]
    exact (derived_bind hsound hnames h hbind).stands
  · have hbound := derived_bind hsound hnames h hbind
    have hdeclared : k.spec.name = a.control := hname.trans h.control
    obtain ⟨l, hl, hspec⟩ := hgrows.card.control? hk
    refine Or.inr ⟨id, l, hl, by rw [hspec, hdeclared], fun l' hl' => ?_⟩
    rw [he]
    exact (writes?_writeValue disk c m desk.card id l').trans
      (hbound.writes?_eq hnames hk hdeclared (hl'.trans hspec))

/-- Applying a list leaves every assignment derived from what it was declared as. -/
theorem derived_apply {pairs : List (Assignment × Assignment)} (hsound : desk.Sound)
    (hnames : (desk.apply disk (pairs.map Prod.snd)).1.card.names.Nodup)
    (hpairs : ∀ p ∈ pairs, Derived disk desk p.1 p.2) :
    ∀ p ∈ (pairs.map Prod.fst).zip (desk.apply disk (pairs.map Prod.snd)).2,
      Derived disk (desk.apply disk (pairs.map Prod.snd)).1 p.1 p.2 := by
  induction pairs generalizing desk with
  | nil => simp
  | cons q more ih =>
    rw [List.forall_mem_cons] at hpairs
    have hsettled : ∀ b ∈ (q :: more).map Prod.snd, b.Settled desk := by
      intro b hb
      obtain ⟨p, hp, rfl⟩ := List.mem_map.mp hb
      rcases List.mem_cons.mp hp with rfl | hp
      · exact hpairs.1.settled
      · exact (hpairs.2 p hp).settled
    obtain ⟨-, hall, -, -⟩ := apply_spec disk hsound hsettled
    obtain ⟨hsound', hgrows, -, -⟩ := applyOne_spec hsound disk hpairs.1.settled
    have hone := derived_applyOne hsound (hall.card.nodup_names hnames) hpairs.1
    have hmore : ∀ p ∈ more, Derived disk (desk.applyOne disk q.2).1 p.1 p.2 :=
      fun p hp => (hpairs.2 p hp).of_grows hgrows
    simp only [List.map_cons, apply] at hnames ⊢
    by_cases hgoes : (desk.applyOne disk q.2).2.2 = true
    · simp only [if_pos hgoes] at hnames ⊢
      have hrest : ∀ b ∈ more.map Prod.snd, b.Settled (desk.applyOne disk q.2).1 := by
        intro b hb
        obtain ⟨p, hp, rfl⟩ := List.mem_map.mp hb
        exact (hmore p hp).settled
      obtain ⟨-, hlater, -, -⟩ := apply_spec disk hsound' hrest
      rw [List.zip_cons_cons, List.forall_mem_cons]
      exact ⟨hone.of_grows hlater, ih hsound' hnames hmore⟩
    · simp only [if_neg hgoes] at hnames ⊢
      rw [List.zip_cons_cons, List.forall_mem_cons, List.zip_map', List.forall_mem_map]
      exact ⟨hone, hmore⟩

/-- The declarations of derived assignments have the interpretation of the assignments. -/
theorem interpret_of_derived {pairs : List (Assignment × Assignment)} (hsound : desk.Sound)
    (hsized : desk.card.Sized) (hnames : desk.card.names.Nodup)
    (hpairs : ∀ p ∈ pairs, Derived disk desk p.1 p.2) :
    desk.card.interpret disk (pairs.map Prod.fst) = desk.card.interpret disk (pairs.map Prod.snd) := by
  induction pairs generalizing desk with
  | nil => rfl
  | cons q more ih =>
    rw [List.forall_mem_cons] at hpairs
    have hassign : desk.card.assign? disk q.1 = desk.card.assign? disk q.2 := by
      cases hid : desk.card.idOf? q.1.control with
      | none =>
        rw [Card.assign?_of_idOf?_eq_none hid,
          Card.assign?_of_idOf?_eq_none (by rw [hpairs.1.control, hid])]
      | some id =>
        obtain ⟨c, hc, hname⟩ := Card.control?_of_idOf? hid
        have hget := (Card.control?_eq_some_iff.mp hc).1
        rw [Card.assign?_of_idOf? hid hget,
          Card.assign?_of_idOf? (by rw [hpairs.1.control, hid]) hget,
          hpairs.1.writes?_eq hnames hc hname rfl]
    obtain ⟨hone, -⟩ := applyOne_eq_assign? hsound hsized hnames disk hpairs.1.settled
    obtain ⟨hsound', hgrows, -, -⟩ := applyOne_spec hsound disk hpairs.1.settled
    simp only [List.map_cons, Card.interpret, hassign, hone]
    by_cases hgoes : (desk.applyOne disk q.2).2.2 = true
    · have hsized' : (desk.applyOne disk q.2).1.card.Sized :=
        applyOne_induction hsound disk hpairs.1.settled (fun _ _ _ _ _ _ _ _ h hw => Card.sized_write h hw)
          hsized
      have hnames' : (desk.applyOne disk q.2).1.card.names = desk.card.names :=
        applyOne_induction (I := fun card => card.names = desk.card.names) hsound disk hpairs.1.settled
          (fun _ _ _ _ _ _ _ _ h hw => (Card.names_write hw).trans h) rfl
      simp only [if_pos hgoes]
      exact ih hsound' hsized' (by rwa [hnames']) fun p hp => (hpairs.2 p hp).of_grows hgrows
    · simp only [if_neg hgoes]

/-- An assignment as it was declared and as it is now: not bound and so far unused, or left behind by
what went before. -/
def Taken (earlier : List (Assignment × Assignment)) (p : Assignment × Assignment) : Prop :=
  (p.2.binding = .unresolved ∧ p.1 = p.2) ∨ p ∈ earlier

/-- What can have happened since a mixer was opened, with the assignments that were bound or applied on
it on the way: each as it was declared and as it was left. -/
inductive History (disk : Disk) : Desk → List (Assignment × Assignment) → Prop
  | opened {card : Card} (h : card.Built) : History disk ⟨card.openMixer.2, card.openMixer.1⟩ []
  | event {desk : Desk} {earlier : List (Assignment × Assignment)} {card : Card}
      (h : History disk desk earlier) (he : Card.Event desk.card card) :
      History disk ⟨card, desk.mixer⟩ earlier
  | rescanned {desk : Desk} {earlier : List (Assignment × Assignment)} (h : History disk desk earlier) :
      History disk ⟨desk.card, desk.mixer.rescan desk.card⟩ earlier
  | lookedUp {desk : Desk} {earlier : List (Assignment × Assignment)} (h : History disk desk earlier)
      (name : String) : History disk ⟨desk.card, (desk.mixer.lookup desk.card name).1⟩ earlier
  | bound {desk : Desk} {earlier : List (Assignment × Assignment)} (h : History disk desk earlier)
      {a b : Assignment} (hfrom : Taken earlier (a, b)) :
      History disk ⟨desk.card, (desk.mixer.bind disk desk.card b).1⟩
        ((a, (desk.mixer.bind disk desk.card b).2.1) :: earlier)
  | applied {desk : Desk} {earlier : List (Assignment × Assignment)} (h : History disk desk earlier)
      {pairs : List (Assignment × Assignment)} (hfrom : ∀ p ∈ pairs, Taken earlier p) :
      History disk (desk.apply disk (pairs.map Prod.snd)).1
        ((pairs.map Prod.fst).zip (desk.apply disk (pairs.map Prod.snd)).2 ++ earlier)

theorem Taken.derived {earlier : List (Assignment × Assignment)} {p : Assignment × Assignment}
    (h : Taken earlier p) (hearlier : ∀ q ∈ earlier, Derived disk desk q.1 q.2) :
    Derived disk desk p.1 p.2 := by
  rcases h with ⟨hb, he⟩ | h
  · rw [he]
    exact derived_of_unresolved hb disk desk
  · exact hearlier p h

theorem Taken.settled {earlier : List (Assignment × Assignment)} {p : Assignment × Assignment}
    (h : Taken earlier p) (hearlier : ∀ q ∈ earlier, q.2.Settled desk) : p.2.Settled desk := by
  rcases h with ⟨hb, -⟩ | h
  · exact settled_of_unresolved hb desk
  · exact hearlier p h

/-- After any history the mixer and what was bound on it are sound. -/
theorem History.sound {earlier : List (Assignment × Assignment)} (h : History disk desk earlier) :
    desk.Sound ∧ desk.card.Sized ∧ ∀ p ∈ earlier, p.2.Settled desk := by
  induction h with
  | opened hbuilt =>
    exact ⟨fun id hid => Card.mem_presentIds.mp hid, hbuilt.sized, by simp⟩
  | event _ he ih =>
    obtain ⟨hsound, hsized, hall⟩ := ih
    exact ⟨sound_of_grows hsound he.grows, he.sized hsized,
      fun p hp => (hall p hp).of_grows ⟨he.grows, rfl, fun _ h => h⟩⟩
  | rescanned _ ih =>
    obtain ⟨hsound, hsized, hall⟩ := ih
    exact ⟨fun id hid => Card.mem_presentIds.mp hid, hsized, fun p hp => (hall p hp).of_grows
      ⟨Card.Grows.refl _, rfl, fun id hid => Card.mem_presentIds.mpr (hsound id hid)⟩⟩
  | lookedUp _ name ih =>
    obtain ⟨hsound, hsized, hall⟩ := ih
    obtain ⟨hsound', hgrows⟩ := lookup_spec hsound name
    exact ⟨hsound', hsized, fun p hp => (hall p hp).of_grows hgrows⟩
  | bound _ hfrom ih =>
    obtain ⟨hsound, hsized, hall⟩ := ih
    obtain ⟨hsound', hgrows, -, hsettled, -⟩ := bind_spec hsound disk (hfrom.settled hall) rfl
    refine ⟨hsound', hsized, ?_⟩
    rw [List.forall_mem_cons]
    exact ⟨hsettled, fun p hp => (hall p hp).of_grows hgrows⟩
  | @applied desk earlier _ pairs hfrom ih =>
    obtain ⟨hsound, hsized, hall⟩ := ih
    have hlist : ∀ b ∈ pairs.map Prod.snd, b.Settled desk := by
      intro b hb
      obtain ⟨p, hp, rfl⟩ := List.mem_map.mp hb
      exact (hfrom p hp).settled hall
    obtain ⟨hsound', hgrows, -, hsettled⟩ := apply_spec disk hsound hlist
    refine ⟨hsound', apply_induction disk hsound hlist (fun _ _ _ _ _ _ _ _ h hw => Card.sized_write h hw)
      hsized, fun p hp => ?_⟩
    rcases List.mem_append.mp hp with hp | hp
    · exact hsettled _ (List.of_mem_zip hp).2
    · exact (hall p hp).of_grows hgrows

/-- After any history, what was bound stands for what was declared. -/
theorem History.derived {earlier : List (Assignment × Assignment)} (h : History disk desk earlier)
    (hnames : desk.card.names.Nodup) : ∀ p ∈ earlier, Derived disk desk p.1 p.2 := by
  induction h with
  | opened => simp
  | event _ he ih =>
    exact fun p hp => (ih (he.grows.nodup_names hnames) p hp).of_grows ⟨he.grows, rfl, fun _ h => h⟩
  | rescanned h ih =>
    exact fun p hp => (ih hnames p hp).of_grows
      ⟨Card.Grows.refl _, rfl, fun id hid => Card.mem_presentIds.mpr (h.sound.1 id hid)⟩
  | lookedUp h name ih =>
    exact fun p hp => (ih hnames p hp).of_grows (lookup_spec h.sound.1 name).2
  | bound h hfrom ih =>
    have hbound := derived_bind h.sound.1 hnames (hfrom.derived (ih hnames)) rfl
    obtain ⟨-, hgrows, -⟩ := bind_spec h.sound.1 disk (hfrom.settled h.sound.2.2) rfl
    rw [List.forall_mem_cons]
    exact ⟨hbound, fun p hp => (ih hnames p hp).of_grows hgrows⟩
  | @applied desk earlier h pairs hfrom ih =>
    obtain ⟨hsound, -, hall⟩ := h.sound
    have hlist : ∀ b ∈ pairs.map Prod.snd, b.Settled desk := by
      intro b hb
      obtain ⟨p, hp, rfl⟩ := List.mem_map.mp hb
      exact (hfrom p hp).settled hall
    obtain ⟨-, hgrows, -, -⟩ := apply_spec disk hsound hlist
    have hearlier := ih (hgrows.card.nodup_names hnames)
    intro p hp
    rcases List.mem_append.mp hp with hp | hp
    · exact derived_apply hsound hnames (fun q hq => (hfrom q hq).derived hearlier) p hp
    · exact (hearlier p hp).of_grows hgrows

/-- Applying assignments refines their interpretation: however long the mixer has been open, whatever was
bound or applied on it before and whichever controls have appeared since, a list makes of the card what the
interpreter makes of it by names alone, from the assignments as they are and as they were declared. -/
theorem apply_refines_interpret {earlier pairs : List (Assignment × Assignment)}
    (hhistory : History disk desk earlier) (hnames : desk.card.names.Nodup)
    (hfrom : ∀ p ∈ pairs, Taken earlier p) :
    (desk.apply disk (pairs.map Prod.snd)).1.card = desk.card.interpret disk (pairs.map Prod.snd)
      ∧ (desk.apply disk (pairs.map Prod.snd)).1.card = desk.card.interpret disk (pairs.map Prod.fst) := by
  obtain ⟨hsound, hsized, hall⟩ := hhistory.sound
  have hderived : ∀ p ∈ pairs, Derived disk desk p.1 p.2 :=
    fun p hp => (hfrom p hp).derived (hhistory.derived hnames)
  have hlist : ∀ b ∈ pairs.map Prod.snd, b.Settled desk := by
    intro b hb
    obtain ⟨p, hp, rfl⟩ := List.mem_map.mp hb
    exact (hfrom p hp).settled hall
  have happly := apply_eq_interpret_of_settled disk hsound hsized hnames hlist
  exact ⟨happly, happly.trans (interpret_of_derived hsound hsized hnames hderived).symm⟩

/-- A switch, and a level that appears when the switch is first written. -/
def levelCard : Card :=
  .ofControls 0 none [.switch "Power" 1, (Control.integer "Level" 1 0 7).appearingWith "Power"]

/-- A mixer opened while the level is not there yet. -/
def levelDesk : Desk :=
  ⟨levelCard.openMixer.2, levelCard.openMixer.1⟩

/-- The switch is bound early, the level only once it has appeared. -/
theorem apply_refines_interpret_level :
    let disk : Disk := ⟨default, ⟨""⟩⟩
    let power := Assignment.declared "Power" .all (.pending "1")
    let bound := (levelDesk.mixer.bind disk levelDesk.card power).2.1
    let level := Assignment.declared "Level" (.at 0) (.pending "0x5")
    levelDesk.card.names.Nodup ∧ bound.binding = .bound 0 .switch
      ∧ (levelDesk.apply disk [bound, level]).1.card = levelDesk.card.interpret disk [bound, level]
      ∧ (levelDesk.apply disk [bound, level]).1.card = levelDesk.card.interpret disk [power, level]
      ∧ (levelDesk.apply disk [bound, level]).1.card.log = [⟨"Power", .value 0 1⟩, ⟨"Level", .value 0 5⟩] := by
  intro disk power bound level
  have hbuilt : levelCard.Built :=
    .event (.event (.blank 0 none) (.added _ _)) (.added _ _)
  have hhistory : History disk levelDesk [(power, bound)] :=
    .bound (.opened hbuilt) (a := power) (b := power) (Or.inl ⟨rfl, rfl⟩)
  have hfrom : ∀ p ∈ [(power, bound), (level, level)], Taken [(power, bound)] p := by
    simp only [List.forall_mem_cons]
    exact ⟨Or.inr List.mem_cons_self, Or.inl ⟨rfl, rfl⟩, fun _ h => absurd h List.not_mem_nil⟩
  have hnames : levelDesk.card.names.Nodup := by decide
  have hrefines := apply_refines_interpret hhistory hnames hfrom
  simp only [List.map_cons, List.map_nil] at hrefines
  exact ⟨hnames, by decide, hrefines.1, hrefines.2, by decide⟩

end Desk

end SoundRouting
