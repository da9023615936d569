import TileGrammar.Pack.Pack
import TileGrammar.Proofs.Version.Precedence

/-!
# Which packs the engine takes

A pack is refused where the version that it asks for stands behind the engine
in the total order. Against an engine without a build that is the case for a
version of greater precedence, and also for one that differs from the engine in
its build alone. So the gate follows precedence among versions without a build.
-/

set_option autoImplicit false

namespace TileGrammar

namespace Version

/-- Asked for by a pack, the version is not met by an engine without a build. -/
def Exceeds (needed engine : Version) : Prop :=
  engine.Precedes needed ∨ engine.Level needed ∧ needed.build ≠ []

theorem compareTotal_eq_lt_iff_exceeds {engine needed : Version} (he : engine.Lawful)
    (hn : needed.Lawful) (hbuild : engine.build = []) :
    engine.compareTotal needed = .lt ↔ needed.Exceeds engine := by
  rw [compareTotal_eq_lt_iff he hn, hbuild, compareBuild_nil_eq_lt_iff hn.build, Exceeds]

end Version

namespace Pack

open Version (Spells)

section

variable {engine : String} {current needed : Version} {p : Pack}

theorem checkEngineAt_of_unspelled (hc : current.Spells engine)
    (h : ¬ ∃ v : Version, v.Spells p.engineMinVersion) :
    p.checkEngineAt engine = .error (.packVersion p.id p.engineMinVersion) := by
  have hnone : Version.ofText? p.engineMinVersion = none := by
    cases hread : Version.ofText? p.engineMinVersion with
    | none => rfl
    | some v => exact absurd ⟨v, (Version.ofText?_eq_some_iff _ v).mp hread⟩ h
  rw [checkEngineAt, (Version.ofText?_eq_some_iff engine current).mpr hc, hnone]
  rfl

theorem checkEngineAt_of_spelled (hc : current.Spells engine)
    (hn : needed.Spells p.engineMinVersion) :
    p.checkEngineAt engine = if current.compareTotal needed = .lt then
      .error (.engineTooOld p.id p.engineMinVersion engine) else .ok () := by
  rw [checkEngineAt, (Version.ofText?_eq_some_iff engine current).mpr hc,
    (Version.ofText?_eq_some_iff _ needed).mpr hn]
  rfl

theorem checkEngineAt_of_exceeds (hc : current.Spells engine) (hbuild : current.build = [])
    (hn : needed.Spells p.engineMinVersion) (h : needed.Exceeds current) :
    p.checkEngineAt engine = .error (.engineTooOld p.id p.engineMinVersion engine) := by
  rw [checkEngineAt_of_spelled hc hn, if_pos]
  exact (Version.compareTotal_eq_lt_iff_exceeds hc.lawful hn.lawful hbuild).mpr h

theorem checkEngineAt_of_not_exceeds (hc : current.Spells engine) (hbuild : current.build = [])
    (hn : needed.Spells p.engineMinVersion) (h : ¬ needed.Exceeds current) :
    p.checkEngineAt engine = .ok () := by
  rw [checkEngineAt_of_spelled hc hn, if_neg]
  exact fun hlt => h ((Version.compareTotal_eq_lt_iff_exceeds hc.lawful hn.lawful hbuild).mp hlt)

end

def release : Version := ⟨1, 0, 0, [], []⟩

theorem release_spells : release.Spells engineRelease :=
  ⟨⟨nofun, nofun⟩, ⟨by decide, by decide, by decide⟩, by decide⟩

/-- Every pack is refused for its text, refused for its version, or taken. -/
theorem checkEngine_cases (p : Pack) :
    (p.checkEngine = .error (.packVersion p.id p.engineMinVersion) ∧
      ¬ ∃ v : Version, v.Spells p.engineMinVersion) ∨
    (∃ v : Version, v.Spells p.engineMinVersion ∧ v.Exceeds release ∧
      p.checkEngine = .error (.engineTooOld p.id p.engineMinVersion engineRelease)) ∨
    ∃ v : Version, v.Spells p.engineMinVersion ∧ ¬ v.Exceeds release ∧ p.checkEngine = .ok () := by
  by_cases hspelled : ∃ v : Version, v.Spells p.engineMinVersion
  · obtain ⟨v, hv⟩ := hspelled
    by_cases h : v.Exceeds release
    · exact .inr (.inl ⟨v, hv, h, checkEngineAt_of_exceeds release_spells rfl hv h⟩)
    · exact .inr (.inr ⟨v, hv, h, checkEngineAt_of_not_exceeds release_spells rfl hv h⟩)
  · exact .inl ⟨checkEngineAt_of_unspelled release_spells hspelled, hspelled⟩

/-- A pack has no version that can be read, or asks for more than the engine is, or is taken. It
asks for more with a version of greater precedence, and with a build of the engine's own version;
so without builds the gate is precedence. -/
theorem gate_is_precedence_without_builds (p : Pack) :
    ((∃ e, p.checkEngine = .error e ∧ e.kind = .config) ↔
      ¬ ∃ v : Version, v.Spells p.engineMinVersion) ∧
    ((∃ e, p.checkEngine = .error e ∧ e.kind = .engineVersionMismatch) ↔
      ∃ v : Version, v.Spells p.engineMinVersion ∧
        (release.Precedes v ∨ release.Level v ∧ v.build ≠ [])) ∧
    (p.checkEngine = .ok () ↔ ∃ v : Version, v.Spells p.engineMinVersion ∧
      ¬ (release.Precedes v ∨ release.Level v ∧ v.build ≠ [])) ∧
    ∀ v : Version, v.Spells p.engineMinVersion → v.build = [] →
      (p.checkEngine = .ok () ↔ ¬ release.Precedes v) := by
  rcases p.checkEngine_cases with ⟨hrun, hnone⟩ | ⟨v, hv, hexceeds, hrun⟩ | ⟨v, hv, hexceeds, hrun⟩
  · rw [hrun]
    refine ⟨iff_of_true ⟨_, rfl, rfl⟩ hnone, iff_of_false ?_ ?_, iff_of_false nofun ?_, ?_⟩
    · rintro ⟨_, ⟨⟩, hkind⟩
      cases hkind
    · rintro ⟨v, hv, -⟩
      exact hnone ⟨v, hv⟩
    · rintro ⟨v, hv, -⟩
      exact hnone ⟨v, hv⟩
    · exact fun v hv _ => absurd ⟨v, hv⟩ hnone
  · rw [hrun]
    refine ⟨iff_of_false ?_ (fun hnone => hnone ⟨v, hv⟩), iff_of_true ⟨_, rfl, rfl⟩ ⟨v, hv, hexceeds⟩,
      iff_of_false nofun ?_, ?_⟩
    · rintro ⟨_, ⟨⟩, hkind⟩
      cases hkind
    · rintro ⟨w, hw, hnot⟩
      exact hnot (hv.unique hw ▸ hexceeds)
    · intro w hw hbuild
      obtain rfl := hv.unique hw
      refine iff_of_false nofun fun hnot => ?_
      exact hexceeds.elim hnot fun h => h.2 hbuild
  · rw [hrun]
    refine ⟨iff_of_false nofun (fun hnone => hnone ⟨v, hv⟩), iff_of_false nofun ?_,
      iff_of_true rfl ⟨v, hv, hexceeds⟩, ?_⟩
    · rintro ⟨w, hw, h⟩
      exact hexceeds (hv.unique hw ▸ h)
    · intro w hw _
      obtain rfl := hv.unique hw
      exact iff_of_true rfl fun h => hexceeds (.inl h)

theorem gate_is_precedence_without_builds_candidate :
    (⟨1, 0, 0, [['r', 'c'], ['1']], []⟩ : Version).Spells "1.0.0-rc.1" ∧
      Pack.checkEngine ⟨"p", "P", "", "1.0.0", "1.0.0-rc.1", false, []⟩ = .ok () := by
  have hspells : (⟨1, 0, 0, [['r', 'c'], ['1']], []⟩ : Version).Spells "1.0.0-rc.1" := by
    refine (Version.ofText?_eq_some_iff _ _).mp ?_
    decide
  refine ⟨hspells, ((gate_is_precedence_without_builds _).2.2.2 _ hspells rfl).mpr ?_⟩
  exact Version.not_precedes_of_release rfl rfl rfl rfl

/-- A build of the engine's own version has no greater precedence, and a pack that asks for it is
refused. -/
theorem build_of_release_refused :
    (⟨1, 0, 0, [], [['1']]⟩ : Version).Spells "1.0.0+1" ∧
      ¬ release.Precedes ⟨1, 0, 0, [], [['1']]⟩ ∧
      Pack.checkEngine ⟨"p", "P", "", "1.0.0", "1.0.0+1", false, []⟩ =
        .error (.engineTooOld "p" "1.0.0+1" engineRelease) := by
  refine ⟨(Version.ofText?_eq_some_iff _ _).mp (by decide), ?_, by decide⟩
  exact Version.not_precedes_of_release rfl rfl rfl rfl

end Pack

end TileGrammar
