import Std.Data.ExtTreeMap
import Mathlib.Data.List.Nodup
import TradingCore.Foundation.MapSum
import TradingCore.Foundation.MapViews

/-! Ordered maps under a renaming of their keys that takes one order to the
other. What is done to a map and, renamed, to its image leaves an image again, and
the two list their entries in the same order. -/

universe u v w

namespace MapImages
open Std MapViews

/-- Every key has a name, and the names are ordered as the keys are. -/
structure Renaming {κ : Type u} {κ' : Type v} (cmp : κ → κ → Ordering) (cmp' : κ' → κ' → Ordering) (rename : κ → κ') :
    Prop where
  order : ∀ first second, cmp' (rename first) (rename second) = cmp first second
  onto : Function.Surjective rename

variable {κ : Type u} {κ' : Type v} {ν : Type w} {cmp : κ → κ → Ordering} {cmp' : κ' → κ' → Ordering} {rename : κ → κ'}

/-- The image holds under the name of a key what the map holds under the key. -/
def Image (rename : κ → κ') (map : ExtTreeMap κ ν cmp) (image : ExtTreeMap κ' ν cmp') [TransCmp cmp] [TransCmp cmp'] :
    Prop :=
  ∀ key, image[rename key]? = map[key]?

variable [TransCmp cmp] [TransCmp cmp'] {map : ExtTreeMap κ ν cmp} {image : ExtTreeMap κ' ν cmp'}

theorem image_empty : Image rename (∅ : ExtTreeMap κ ν cmp) (∅ : ExtTreeMap κ' ν cmp') := by
  intro key
  rw [ExtTreeMap.getElem?_empty, ExtTreeMap.getElem?_empty]

theorem Image.mem (held : Image rename map image) (key : κ) : rename key ∈ image ↔ key ∈ map := by
  rw [ExtTreeMap.mem_iff_isSome_getElem?, held key, ExtTreeMap.mem_iff_isSome_getElem?]

theorem Image.insert (held : Image rename map image) (names : Renaming cmp cmp' rename) (key : κ) (value : ν) :
    Image rename (map.insert key value) (image.insert (rename key) value) := by
  intro other
  rw [ExtTreeMap.getElem?_insert, ExtTreeMap.getElem?_insert, held other, names.order]

theorem Image.erase (held : Image rename map image) (names : Renaming cmp cmp' rename) (key : κ) :
    Image rename (map.erase key) (image.erase (rename key)) := by
  intro other
  rw [ExtTreeMap.getElem?_erase, ExtTreeMap.getElem?_erase, held other, names.order]

theorem Image.insertIfNew (held : Image rename map image) (names : Renaming cmp cmp' rename) (key : κ) (value : ν) :
    Image rename (map.insertIfNew key value) (image.insertIfNew (rename key) value) := by
  intro other
  simp only [ExtTreeMap.getElem?_insertIfNew, held other, held.mem, names.order]

variable [LawfulEqCmp cmp] [LawfulEqCmp cmp']

omit [TransCmp cmp] [LawfulEqCmp cmp'] in
theorem Renaming.injective (names : Renaming cmp cmp' rename) : Function.Injective rename := by
  intro first second same
  have equal : cmp first second = .eq := by
    rw [← names.order, same]
    exact ReflCmp.compare_self
  exact LawfulEqCmp.eq_of_compare equal

/-- Both maps are sorted, so the same entries stand in the same order. -/
theorem Image.toList (held : Image rename map image) (names : Renaming cmp cmp' rename) :
    image.toList = map.toList.map fun entry => (rename entry.1, entry.2) := by
  have sorted : (map.toList.map fun entry => (rename entry.1, entry.2)).Pairwise
      fun first second => cmp' first.1 second.1 = .lt := by
    rw [List.pairwise_map]
    simp only [names.order]
    exact map.ordered_keys_toList
  have once : (map.toList.map fun entry => (rename entry.1, entry.2)).Nodup := by
    refine (MapSum.nodup_toList map).map ?_
    intro first second same
    obtain ⟨keys, values⟩ := Prod.mk.inj same
    exact Prod.ext (names.injective keys) values
  refine List.Perm.eq_of_pairwise ?_ image.ordered_keys_toList sorted ?_
  · intro first second _ _ less greater
    rw [OrientedCmp.gt_of_lt less] at greater
    cases greater
  · rw [List.perm_ext_iff_of_nodup (MapSum.nodup_toList image) once]
    rintro ⟨name, value⟩
    obtain ⟨key, rfl⟩ := names.onto name
    rw [ExtTreeMap.mem_toList_iff_getElem?_eq_some, held key, ← ExtTreeMap.mem_toList_iff_getElem?_eq_some,
      List.mem_map]
    constructor
    · exact fun member => ⟨(key, value), member, rfl⟩
    · rintro ⟨⟨other, value'⟩, member, same⟩
      obtain ⟨keys, rfl⟩ := Prod.mk.inj same
      rwa [← names.injective keys]

theorem Image.size (held : Image rename map image) (names : Renaming cmp cmp' rename) : image.size = map.size := by
  rw [← ExtTreeMap.length_toList, held.toList names, List.length_map, ExtTreeMap.length_toList]

theorem Image.head (held : Image rename map image) (names : Renaming cmp cmp' rename) :
    image.toList.head? = map.toList.head?.map fun entry => (rename entry.1, entry.2) := by
  rw [held.toList names, List.head?_map]

theorem Image.last (held : Image rename map image) (names : Renaming cmp cmp' rename) :
    image.toList.getLast? = map.toList.getLast?.map fun entry => (rename entry.1, entry.2) := by
  rw [held.toList names, List.getLast?_map]

end MapImages
