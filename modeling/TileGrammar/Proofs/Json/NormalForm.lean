import TileGrammar.Proofs.Json.Alike
import TileGrammar.Proofs.Json.Records

/-!
# Values in normal form

The members of a settled object stand under different names and are settled
themselves. A dictionary of settled values is written as its entries and read
back from them.
-/

set_option autoImplicit false

namespace TileGrammar

namespace Json

theorem Settled.nodup_names {ms : List (String × Json)} (h : (obj ms).Settled) :
    (ms.map Prod.fst).Nodup := by
  have hsorted : (Dict.ofList (sortedMembers ms)).entries = ms := by
    injection (settled_iff.mp h).2
  rw [← hsorted]
  exact Dict.nodup_keys _

theorem Settled.of_mem {ms : List (String × Json)} (h : (obj ms).Settled) {m : String × Json}
    (hm : m ∈ ms) : m.2.Settled := by
  obtain ⟨hreadable, hsorted⟩ := settled_iff.mp h
  have hentries : (Dict.ofList (sortedMembers ms)).entries = ms := by injection hsorted
  have hmem : m ∈ sortedMembers ms := by
    rw [← hentries] at hm
    exact Dict.mem_entries_ofList hm
  rw [sortedMembers_eq] at hmem
  obtain ⟨n, hn, rfl⟩ := List.mem_map.mp hmem
  -- A member of the normal form comes from one of the same name, and there is only one.
  have hself : (n.1, n.2.sorted) = n := List.inj_on_of_nodup_map h.nodup_names hm hn rfl
  have hvalue : n.2.sorted = n.2 := congrArg Prod.snd hself
  exact settled_iff.mpr ⟨(readableMembers_iff ms).mp hreadable _ hm, congrArg sorted hvalue⟩

theorem Settled.lookupIn {ms : List (String × Json)} (h : (obj ms).Settled) {k : String}
    {j : Json} (hj : Dict.lookupIn k ms = some j) : j.Settled :=
  h.of_mem (Dict.lookupIn_eq_some hj)

end Json

theorem Dict.Settled.of_mem {d : Dict Json} (h : d.Settled) {m : String × Json}
    (hm : m ∈ d.entries) : m.2.Settled := h m.1 m.2 ((d.get?_eq_some_iff _ _).mpr hm)

theorem Dict.Settled.insertAll {d : Dict Json} (hd : d.Settled) {ms : List (String × Json)}
    (hm : (Json.obj ms).Settled) : (d.insertAll ms).Settled := by
  intro k j hj
  rw [d.get?_insertAll_of_nodup hm.nodup_names] at hj
  rcases Option.or_eq_some_iff.mp hj with hchange | ⟨-, hentry⟩
  · exact hm.lookupIn hchange
  · exact hd k j hentry

def SettledDict.insertAll (d : SettledDict) {ms : List (String × Json)}
    (hm : (Json.obj ms).Settled) : SettledDict :=
  ⟨d.toDict.insertAll ms, d.settled.insertAll hm⟩

namespace Codec

theorem decode_settledDict_eq_some_iff {j : Json} {d : SettledDict} :
    settledDict.decode j = some d ↔ (dict any).decode j = some d.toDict := by
  refine Option.pmap_eq_some_iff.trans ⟨?_, fun h => ⟨d.toDict, d.settled, h, rfl⟩⟩
  rintro ⟨e, -, h, rfl⟩
  exact h

theorem encode_settledDict (d : SettledDict) : settledDict.encode d = .obj d.entries := by
  refine congrArg Json.obj ((List.map_congr_left fun m hm => ?_).trans (List.map_id _))
  exact congrArg (Prod.mk m.1) (Json.settled_iff.mp (d.settled.of_mem hm)).2

theorem decode_dict_any {ms : List (String × Json)} (h : ∀ m ∈ ms, m.2.Settled) :
    (dict any).decode (.obj ms) = some (Dict.ofList ms) := by
  have hmembers : (ms.map id).mapM (fun m => (any.decode m.2).map fun a => (m.1, a)) = some ms :=
    Json.mapM_map_eq_some fun m hm => congrArg (Option.map (Prod.mk m.1)) (h m hm)
  rw [List.map_id] at hmembers
  exact congrArg (Option.map Dict.ofList) hmembers

theorem settledDict_returns (d : SettledDict) : settledDict.Returns d := by
  rw [Returns, decode_settledDict_eq_some_iff, encode_settledDict, decode_dict_any,
    Dict.ofList_entries]
  exact fun m hm => d.settled.of_mem hm

end Codec

end TileGrammar
