import ExportTables.Proofs.Files.Reading

/-!
# What is written in place is read back

A walk that may create a file leads where any walk leads. The file that is put at its end stands in
no way, since a walk goes on behind directories and links only. So the path leads to what has been
written, unless it leads to the device that drops everything.
-/

namespace ExportTables

namespace FileTree

open ExportTables.Path

variable {t t' : FileTree} {usable : Location → Prop} {working : WorkingDirectory}
  {path : String} {l d : Location} {contents : ByteArray} {readOnly : Bool}

/-- A place that holds no entry but maybe a file. -/
def IsWritable (t : FileTree) (place : Location) : Prop :=
  ∀ entry, t.get? place = some entry → ∃ contents readOnly, entry = .file contents readOnly

theorem IsWritable.ne_nil (h : t.IsWritable d) : d ≠ [] := by
  rintro rfl
  obtain ⟨contents, readOnly, heq⟩ := h _ (get?_nil t)
  cases heq

theorem IsWritable.get?_put (h : t.IsWritable d) {entry : Entry} (hentry : t.get? l = some entry)
    (hfile : ∀ contents readOnly, entry ≠ .file contents readOnly) (new : Entry) :
    (t.put d new).get? l = some entry := by
  rw [get?_put_of_ne, hentry]
  rintro rfl
  obtain ⟨contents, readOnly, heq⟩ := h entry hentry
  exact hfile contents readOnly heq

/-- A walk to a place leads there still when a file is put there. -/
theorem Leads.put_file {links : Nat} {here : Location} {route : List String}
    (h : Leads t usable links here route d) (hd : t.IsWritable d) :
    Leads (t.put d (.file contents readOnly)) usable links here route d := by
  induction h with
  | done => exact .done
  | slash hhere _ ih =>
    obtain ⟨b, hhere⟩ := hhere
    exact .slash ⟨b, hd.get?_put hhere (by simp) _⟩ (ih hd)
  | current hhere _ ih => exact .current (hd.get?_put hhere (by simp) _) (ih hd)
  | above hhere _ ih => exact .above (hd.get?_put hhere (by simp) _) (ih hd)
  | missing hhere hdots hname _ =>
    exact .enter (hd.get?_put hhere (by simp) _) hdots hname (get?_put_self _ hd.ne_nil _) (by simp)
      .done
  | @enter _ here name _ d entry hhere hdots hname hentry hlink _ ih =>
    have hhere' := hd.get?_put hhere (by simp) (.file contents readOnly)
    by_cases heq : here ++ [name] = d
    · have hentry' : (t.put d (.file contents readOnly)).get? (here ++ [name]) =
          some (.file contents readOnly) := by
        rw [heq]
        exact get?_put_self t hd.ne_nil _
      exact .enter hhere' hdots hname hentry' (by simp) (ih hd)
    · exact .enter hhere' hdots hname ((get?_put_of_ne t heq _).trans hentry) hlink (ih hd)
  | link hhere hdots hname hentry husable _ ih =>
    exact .link (hd.get?_put hhere (by simp) _) hdots hname (hd.get?_put hentry (by simp) _)
      husable (ih hd)

/-- A write puts a file where the path leads, or goes to the device. -/
theorem lookup_of_write (h : t.write working path contents = .ok t') :
    t'.lookup working path = .ok (.file contents false) ∨
      t'.lookup working path = .ok .null := by
  obtain ⟨found, hresolve, h⟩ := bind_eq_ok.mp h
  obtain ⟨⟨⟩, hvalid, hlocate⟩ := bind_eq_ok.mp hresolve
  split at h
  · cases h
  rename_i d
  have hleads := leadsFrom_of_locate hlocate
  have hput : t.IsWritable d → (t.put d (.file contents false)).lookup working path =
      .ok (.file contents false) := by
    intro hd
    obtain ⟨start, names, hstart, hwalk⟩ := hleads
    exact lookup_eq_ok_of_leads hvalid ⟨start, names, hstart, hwalk.put_file hd⟩
      (get?_put_self t hd.ne_nil _)
  split at h
  · cases h
  · rename_i old hold
    obtain rfl : t.put d (.file contents false) = t' := Except.ok.inj h
    refine Or.inl (hput fun entry hentry => ⟨old, false, ?_⟩)
    exact Option.some.inj (hentry.symm.trans hold)
  · rename_i hnone
    obtain rfl : t.put d (.file contents false) = t' := Except.ok.inj h
    refine Or.inl (hput fun entry hentry => ?_)
    rw [hnone] at hentry
    cases hentry
  · rename_i hnull
    obtain rfl : t = t' := Except.ok.inj h
    exact Or.inr (lookup_eq_ok_of_leads hvalid hleads hnull)
  · cases h

end FileTree

namespace World

open FileSystem FileTree

variable {w w' : World} {path text : String}

theorem run_writeBytes (path : String) (contents : ByteArray) (w : World) :
    (writeBytes path contents : StateM World _).run w =
      w.update (w.tree.write w.here path contents) := rfl

/-- A text that has been written is held, unless it went to the device. -/
theorem holds_of_writeBytes
    (h : (writeBytes path text.toUTF8 : StateM World _).run w = (.ok (), w')) :
    w'.Holds path text ∨ w'.kind path = .ok .other := by
  rw [run_writeBytes] at h
  cases hwritten : w.tree.write w.here path text.toUTF8 with
  | error e =>
    rw [hwritten] at h
    cases (Prod.mk.inj h).1
  | ok tree =>
    rw [hwritten] at h
    obtain rfl : { w with tree := tree } = w' := (Prod.mk.inj h).2
    rcases lookup_of_write hwritten with hlookup | hlookup
    · exact Or.inl ⟨false, hlookup⟩
    · right
      rw [World.kind, hlookup]
      rfl

end World

end ExportTables
