import ShopTables.Proofs.KeyList
import ShopTables.Schema.Table

/-!
# The columns of an entity

A table has a column for each property that is no association, whatever group it stands in
(`TableDefinition.perm_names`), so no two columns of it have the same name
(`TableDefinition.nodup_names`).
-/

namespace ShopTables

namespace Entity

/-- The names of the properties that become columns. -/
def columnNames (e : Entity) : List String :=
  (e.properties.filter fun p => !p.2.isAssociation).map (·.1)

theorem perm_columnNames (e : Entity) : (e.columns.map (·.name)).Perm e.columnNames := by
  unfold columns
  dsimp only
  refine ((List.filter_append_perm (fun c : Column => c.primaryKey) _).map _).trans ?_
  rw [List.map_map]
  exact .refl _

theorem nodup_columnNames {e : Entity} (h : (KeyList.keys e.properties).Nodup) :
    e.columnNames.Nodup :=
  h.sublist (List.filter_sublist.map _)

end Entity

namespace TableDefinition

variable (registered : String) (e : Entity) (mapping : Bool)

theorem map_name_ofEntity :
    (ofEntity registered e mapping).columns.map (·.name) = e.columns.map (·.name) := by
  rw [ofEntity, List.map_map]
  refine List.map_congr_left fun c _ => ?_
  rw [Function.comp_apply]
  by_cases hsource : c.source = ""
  · rw [if_pos hsource]
  · rw [if_neg hsource]

/-- A table has a column for each property that is no association. -/
theorem perm_names :
    ((ofEntity registered e mapping).columns.map (·.name)).Perm e.columnNames :=
  map_name_ofEntity registered e mapping ▸ e.perm_columnNames

variable {e}

/-- Properties with different names give columns with different names. -/
theorem nodup_names (h : (KeyList.keys e.properties).Nodup) :
    ((ofEntity registered e mapping).columns.map (·.name)).Nodup :=
  (perm_names registered e mapping).nodup_iff.mpr (Entity.nodup_columnNames h)

end TableDefinition

end ShopTables
