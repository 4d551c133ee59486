import Galley.Proofs.Cut
import Galley.Proofs.Markup.Region

/-! # Regions by the positions of their ends -/

namespace Galley.Markup

variable {κ : Type} {delimiter : Delimiter κ} {events : List Event}

theorem regions_eq_map_value (delimiter : Delimiter κ) (events : List Event) :
    regions delimiter events = (occurrences (Region.read delimiter) events).map (·.value) :=
  rfl

theorem exists_append_of_mem_regions {region : Region κ} (h : region ∈ regions delimiter events) :
    ∃ before after closer, events = before ++ region.events ++ after ∧
      region.Closed delimiter closer := by
  obtain ⟨occurrence, hmem, rfl⟩ := List.mem_map.mp h
  obtain ⟨before, after, closer, hevents, -, -, hclosed⟩ :=
    Region.exists_append_of_standsAt ((Region.leftmost delimiter events).stands occurrence hmem)
  exact ⟨before, after, closer, hevents, hclosed⟩

/-- A region covers the events from its opening to its closing. -/
theorem covers_iff (hevents : Increasing events) {occurrence : Occurrence (Region κ)}
    (hmem : occurrence ∈ occurrences (Region.read delimiter) events) {i : Nat} {event : Event}
    (hi : events[i]? = some event) :
    occurrence.Covers i ↔ occurrence.value.opening.position ≤ event.position ∧
      event.position ≤ occurrence.value.closing.position := by
  have hstands := (Region.leftmost delimiter events).stands occurrence hmem
  obtain ⟨-, -, -, -, -, hlength, -⟩ := Region.exists_append_of_standsAt hstands
  have hopening := hevents.lt_iff hi (Region.opening_getElem? hstands)
  have hclosing := hevents.lt_iff (Region.closing_getElem? hstands) hi
  simp only [Occurrence.Covers, Occurrence.stop]
  omega

/-- Each region ends before the next begins. -/
theorem regions_apart (hevents : Increasing events) :
    (regions delimiter events).Pairwise fun a b => a.closing.position < b.opening.position := by
  have hleft := Region.leftmost delimiter events
  apply List.pairwise_map.mpr
  apply hleft.apart.imp_of_mem
  intro a b ha hb hab
  have hclosing := Region.closing_getElem? (hleft.stands a ha)
  have hopening := Region.opening_getElem? (hleft.stands b hb)
  obtain ⟨-, -, -, -, -, hlength, -⟩ := Region.exists_append_of_standsAt (hleft.stands a ha)
  have hindex : a.position + a.length - 1 < b.position := by
    change a.position + a.length ≤ b.position at hab
    omega
  exact (hevents.lt_iff hclosing hopening).mpr hindex

/-- The closing is the first event behind the opening that closes the region. -/
theorem Region.Closed.closing_le {before after : List Event} {closer : Mark} {region : Region κ}
    (h : region.Closed delimiter closer) (hevents : Increasing (before ++ region.events ++ after))
    {event : Event} (hmem : event ∈ before ++ region.events ++ after) (hmark : event.mark = closer)
    (hlt : region.opening.position < event.position) :
    region.closing.position ≤ event.position := by
  have hbounds := hevents.bounds
  simp only [Region.events, List.mem_append, List.mem_cons, List.not_mem_nil, or_false] at hmem
  rcases hmem with (hbefore | rfl | hinside | rfl) | hafter
  · have hbelow := hbounds.before_lt _ hbefore
    omega
  · omega
  · exact absurd hmark (h.inside_ne _ hinside)
  · exact Nat.le_refl _
  · exact Nat.le_of_lt (hbounds.after_gt _ hafter)

/-- An opening that is closed somewhere behind it belongs to a region. -/
theorem exists_region (hevents : Increasing events) {opening closing : Event} {label : κ}
    {closer : Mark} (hopening : opening ∈ events)
    (hopens : delimiter opening.mark = some (label, closer)) (hclosing : closing ∈ events)
    (hcloses : closing.mark = closer) (hlt : opening.position < closing.position) :
    ∃ region ∈ regions delimiter events, region.opening.position ≤ opening.position ∧
      opening.position ≤ region.closing.position := by
  have hleft := Region.leftmost delimiter events
  obtain ⟨i, hi⟩ := List.mem_iff_getElem?.mp hopening
  obtain ⟨j, hj⟩ := List.mem_iff_getElem?.mp hclosing
  obtain ⟨length, region, hstands⟩ :=
    Region.exists_standsAt hi hopens hj hcloses ((hevents.lt_iff hi hj).mp hlt)
  obtain ⟨occurrence, hmem, hcovers⟩ := hleft.exists_covers (Nat.zero_le i) hstands
  exact ⟨occurrence.value, List.mem_map_of_mem hmem, (covers_iff hevents hmem hi).mp hcovers⟩

/-- Events behind others make regions of their own when every opening before them belongs to a
region already. -/
theorem regions_append (hevents : Increasing events)
    (h : ∀ event ∈ events, (delimiter event.mark).isSome →
      ∃ region ∈ regions delimiter events, region.opening.position ≤ event.position ∧
        event.position ≤ region.closing.position) (more : List Event) :
    regions delimiter (events ++ more) = regions delimiter events ++ regions delimiter more := by
  have hcut : CleanCut (Region.read delimiter) (Region.Written delimiter) events more := by
    intro i hi length region hstands
    obtain ⟨-, -, closer, -, -, -, hclosed⟩ := Region.exists_append_of_standsAt hstands
    have hopening := Region.opening_getElem? hstands
    rw [List.getElem?_append_left hi] at hopening
    obtain ⟨found, hfound, hbounds⟩ := h region.opening (List.mem_of_getElem? hopening)
      (by rw [hclosed.opens]; rfl)
    obtain ⟨occurrence, hmem, rfl⟩ := List.mem_map.mp hfound
    exact ⟨occurrence, hmem, (covers_iff hevents hmem hopening).mpr hbounds⟩
  simp only [regions_eq_map_value, occurrences_append (Region.read_decides delimiter) hcut,
    List.map_append, List.map_map]
  rfl

end Galley.Markup
