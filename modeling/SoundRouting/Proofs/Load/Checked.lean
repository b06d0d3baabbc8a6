import SoundRouting.Proofs.Load.Redirects
/-!
What a load accepts is the language of configurations.
-/
namespace SoundRouting.Config

open Runs

variable {disk : Disk} {rack after : Rack} {file : Location} {loaded : Loaded} {s t : State}

/-- A load that succeeds ends in a file with exactly one mixer, if all its files have one root element. -/
theorem mixers_of_load (hload : load disk rack file = (.ok loaded, after)) (hroots : SingleRoots disk rack file) :
    ∃ earlier last s t root, TakesUp disk rack file earlier last s ∧ Runs (loadFile disk last) s none t
      ∧ readTree disk last = .ok [root] ∧ (eventsOf root).countP (·.opensTag "mixer") = 1 := by
  obtain ⟨earlier, last, s, t, u, htakes, hlast, hfinish, -⟩ := finishes_of_load hload
  obtain ⟨root, hread, -, -, hstage⟩ := htakes.ends hroots hlast
  refine ⟨earlier, last, s, t, root, htakes, hlast, hread, ?_⟩
  rcases hstage.of_rooted rfl with ⟨hfresh, -, -⟩ | ⟨-, hmixers⟩
  · have hmixer := mixer_of_finish hfinish
    rw [hfresh.mixer] at hmixer
    cases hmixer
  · exact hmixers

/-- Going through the elements of a file, one is refused exactly where they leave the language: those before
it can be completed to a document, and with it they cannot. Elements gone through to their end are a
document. The limit of depth refuses nothing that may stand where it does. A load that succeeds ends in a
file with exactly one mixer, if all its files have one root element. -/
theorem accepts_language (disk : Disk) :
    (∀ s elements, s.frames = [⟨none, Grammar.topLevel⟩] →
      (∀ line tag, (∃ t, (walkElements disk elements).run.run s = (.error (.config line (.elementNotAllowed tag)), t))
        ↔ ∃ done attributes rest t, eventsOfAll elements = done ++ .opens line tag attributes :: rest
          ∧ Runs (takeAll disk done) s none t ∧ Completable done
          ∧ ¬ Completable (done ++ [.opens line tag attributes]))
      ∧ (∀ t, Runs (walkElements disk elements) s none t → InLanguage elements)
      ∧ ∀ done t tag e, Runs (takeAll disk done) s none t →
        Grammar.elementOfTag? t.inner.children tag = some e → t.frames.length - 1 < Grammar.maxDepth)
    ∧ ∀ rack file loaded after, load disk rack file = (.ok loaded, after) → SingleRoots disk rack file →
      ∃ earlier last s t root, TakesUp disk rack file earlier last s ∧ Runs (loadFile disk last) s none t
        ∧ readTree disk last = .ok [root] ∧ (eventsOf root).countP (·.opensTag "mixer") = 1 := by
  refine ⟨fun s elements hframes => ?_, fun rack file loaded after => mixers_of_load⟩
  have htop := follows_top hframes
  refine ⟨fun line tag => refused_iff htop, fun t => inLanguage_of_walk htop, fun done t tag e hdone he => ?_⟩
  obtain ⟨levels, -, ht⟩ := follows_takeAll htop hdone
  have hfilter := (ht.element tag).1
  rw [he] at hfilter
  exact of_decide_eq_true (Option.filter_eq_some_iff.mp hfilter).2

/-- The load of a configuration that is handed over ends in a file with one mixer, and so it is. -/
theorem accepts_language_relay :
    load relayDisk relayRack ⟨"a"⟩ = (.ok relayLoaded, ⟨relayRack.cards.map fun card => { card with opens := 2 }⟩)
      ∧ SingleRoots relayDisk relayRack ⟨"a"⟩
      ∧ (∃ earlier last s t root, TakesUp relayDisk relayRack ⟨"a"⟩ earlier last s
        ∧ Runs (loadFile relayDisk last) s none t ∧ readTree relayDisk last = .ok [root]
        ∧ (eventsOf root).countP (·.opensTag "mixer") = 1)
      ∧ InLanguage relaySecond := by
  obtain ⟨hwalk, hmixers⟩ := accepts_language relayDisk
  refine ⟨loads_relay.2.2, singleRoots_relay, hmixers _ _ _ _ loads_relay.2.2 singleRoots_relay, ?_⟩
  have hruns := loads_relay.2.1
  rw [Runs, run_loadFile events_relay.2, ← walkElements_eq_takeAll] at hruns
  exact (hwalk (relayBetween.enter ⟨"/b"⟩) relaySecond rfl).2.1 relayEnd hruns

/-- A configuration with an entity that ends the root element, so that another one can follow. -/
def twoRootsDisk : Disk :=
  ⟨.folder [("a", .ofText "<!DOCTYPE a [<!ENTITY z \"<mixer card='0'/></audiohal>\">]>
    <audiohal>&z;<audiohal><mixer card='2'/></audiohal>")], ⟨"/"⟩⟩

def twoRoots : List Xml.Element :=
  [.mk "audiohal" 2 [] [.mk "mixer" 1 [("card", "0")] []], .mk "audiohal" 2 [] [.mk "mixer" 2 [("card", "2")] []]]

set_option maxRecDepth 4000 in
/-- It is loaded although it has two mixers, and the cards of both have been opened. -/
theorem loaded_with_two_mixers :
    let rack : Rack := ⟨[.blank 0 none, .blank 2 none]⟩
    load twoRootsDisk rack ⟨"/a"⟩ = (.ok ⟨(State.start rack).model.compress, ⟨2, []⟩, 2⟩,
        ⟨[{ Card.blank 0 none with opens := 1 }, { Card.blank 2 none with opens := 1 }]⟩)
      ∧ (readTree twoRootsDisk ⟨"/a"⟩).toOption.map eventsOfAll = some (eventsOfAll twoRoots)
      ∧ (eventsOfAll twoRoots).countP (·.opensTag "mixer") = 2 := by
  intro rack
  have hevents : (readTree twoRootsDisk ⟨"/a"⟩).toOption.map eventsOfAll = some (eventsOfAll twoRoots) := by
    refine readTree_of_find rfl String.toList_ofList fun t ht => ?_
    rw [Xml.elements?, ht]
    decide +kernel
  refine ⟨?_, hevents, by decide⟩
  have hfirst : TakesUp twoRootsDisk rack ⟨"/a"⟩ [] ⟨"/a"⟩ _ := TakesUp.start (by decide)
  rw [(hfirst.load_of_events hevents (by decide +kernel) rfl ⟨(State.start rack).model.compress, ⟨2, []⟩, 2⟩
    (by decide +kernel)).2, Prod.mk.injEq]
  exact ⟨rfl, by decide +kernel⟩

end SoundRouting.Config
