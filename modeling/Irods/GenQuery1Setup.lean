import Irods.StringOpr

/-! The conjuncts of a search condition. A word ends at a blank outside of parentheses; AND
separates two conjuncts unless it belongs to a BETWEEN. -/
namespace Irods.SqlConjuncts
open CText

def flush (word : Text) : List Text := if word.isEmpty then [] else [word]

def wordsFrom : Nat → Text → Text → Option (List Text)
  | 0,word,[] => some (flush word)
  | _+1,_,[] => none
  | 0,word,c::t =>
    if c = '(' then wordsFrom 1 (word ++ [c]) t
    else if c = ')' then none
    else if c = ' ' then (wordsFrom 0 [] t).map (flush word ++ ·)
    else wordsFrom 0 (word ++ [c]) t
  | depth+1,word,c::t =>
    if c = '(' then wordsFrom (depth+2) (word ++ [c]) t
    else if c = ')' then wordsFrom depth (word ++ [c]) t
    else wordsFrom (depth+1) (word ++ [c]) t

def words (t : Text) : Option (List Text) := wordsFrom 0 [] t

def AND : Text := lit "AND"
def OR : Text := lit "OR"
def BETWEEN : Text := lit "BETWEEN"

def conjunctsFrom : Bool → List Text → List Text → List (List Text)
  | _,piece,[] => [piece]
  | pending,piece,w::ws =>
    if w = AND ∧ pending then conjunctsFrom false (piece ++ [w]) ws
    else if w = AND then piece::conjunctsFrom false [] ws
    else conjunctsFrom (pending || w == BETWEEN) (piece ++ [w]) ws

def conjuncts (ws : List Text) : List (List Text) := conjunctsFrom false [] ws

/- Every AND has something on both sides, and there is no OR outside of parentheses. -/
def wellFormed (ws : List Text) : Bool := (conjuncts ws).all (fun c => !c.isEmpty) && !ws.contains OR

end Irods.SqlConjuncts

/-! The tables of general_query_setup.cpp: which tables there are and what stands for them in a
FROM list, the table and column behind every column number, and the links between tables. -/
namespace Irods.GenQuery1Setup
open CText StringOpr SqlConjuncts List

def MAX_TSQL : Nat := 110

structure Table where
  tableName : Text
  tableAlias : Text
  cycler : Nat
  deriving DecidableEq, Repr

structure Column where
  defineValue : Nat
  tableName : Text
  columnName : Text
  deriving DecidableEq, Repr

structure Link where
  table1 : Nat
  table2 : Nat
  connectingSQL : Text
  deriving DecidableEq, Repr

def nameChar (c : Char) : Bool := c.isAlphanum || c == '_'
def nameText (t : Text) : Bool := t.all nameChar

/- Some column names of the table end in a blank. -/
def paddedName (t : Text) : Bool := (t.dropWhile nameChar).all (fun c => c == ' ')
def setupChar (c : Char) : Bool := nameChar c || c == '.' || c == ' ' || c == '='
def setupText (t : Text) : Bool := t.all setupChar

def joinText (t : Text) : Bool :=
  match words t with
  | none => false
  | some ws => wellFormed ws && !ws.contains BETWEEN

theorem nameSetup {t} (name : nameText t = true) : setupText t = true := by
  refine all_eq_true.mpr fun c mem => ?_
  simp [setupChar,all_eq_true.mp name c mem]

theorem paddedSetup {t} (padded : paddedName t = true) : setupText t = true := by
  refine all_eq_true.mpr fun c mem => ?_
  rw [← takeWhile_append_dropWhile (p := nameChar) (l := t)] at mem
  rcases mem_append.mp mem with name | blank
  · simp [setupChar,mem_takeWhile_imp name]
  · have same := all_eq_true.mp padded c blank
    simp [setupChar,same]

/- boost::algorithm::split at the path separator returns at least one piece. -/
structure Setup where
  tables : List Table
  columns : List Column
  links : List Link
  split : Text → List Text
  tableTexts : ∀ t ∈ tables, nameText t.tableName = true ∧ setupText t.tableAlias = true
  columnTexts : ∀ c ∈ columns, nameText c.tableName = true ∧ paddedName c.columnName = true
  linkTexts : ∀ l ∈ links, setupText l.connectingSQL = true ∧ joinText l.connectingSQL = true ∧
    l.connectingSQL.length < MAX_TSQL
  linked : ∀ l ∈ links, l.table1 < tables.length ∧ l.table2 < tables.length
  splitSome : ∀ t, split t ≠ []

def sTable (tableName tableAlias : String) (cycler : Nat) {n a : Text} (_ : String.ofList n = tableName := by exact rfl)
    (_ : String.ofList a = tableAlias := by exact rfl) : Table := ⟨n,a,cycler⟩

def sColumn (defineValue : Nat) (tableName columnName : String) {t c : Text}
    (_ : String.ofList t = tableName := by exact rfl) (_ : String.ofList c = columnName := by exact rfl) : Column :=
  ⟨defineValue,t,c⟩

def icatTables : List Table := [
  sTable "R_USER_PASSWORD" "R_USER_PASSWORD" 0,sTable "R_USER_SESSION_KEY" "R_USER_SESSION_KEY" 0,
  sTable "R_TOKN_MAIN" "R_TOKN_MAIN" 0,sTable "R_RESC_GROUP" "R_RESC_GROUP" 0,sTable "R_ZONE_MAIN" "R_ZONE_MAIN" 0,
  sTable "R_RESC_MAIN" "R_RESC_MAIN" 0,sTable "R_COLL_MAIN" "R_COLL_MAIN" 0,sTable "R_DATA_MAIN" "R_DATA_MAIN" 0,
  sTable "r_met2_main" "R_META_MAIN r_met2_main" 0,sTable "R_META_MAIN" "R_META_MAIN" 0,
  sTable "R_RULE_MAIN" "R_RULE_MAIN" 0,sTable "R_USER_MAIN" "R_USER_MAIN" 0,
  sTable "r_resc_access" "R_OBJT_ACCESS r_resc_access" 0,sTable "r_coll_access" "R_OBJT_ACCESS r_coll_access" 0,
  sTable "r_data_access" "R_OBJT_ACCESS r_data_access" 0,sTable "r_met2_access" "R_OBJT_ACCESS r_met2_access" 0,
  sTable "r_rule_access" "R_OBJT_ACCESS r_rule_access" 0,sTable "r_msrvc_access" "R_OBJT_ACCESS r_msrvc_access" 0,
  sTable "r_resc_audit" "R_OBJT_AUDIT r_resc_audit" 0,sTable "r_coll_audit" "R_OBJT_AUDIT r_coll_audit" 0,
  sTable "r_data_audit" "R_OBJT_AUDIT r_data_audit" 0,sTable "r_met2_audit" "R_OBJT_AUDIT r_met2_audit" 0,
  sTable "r_rule_audit" "R_OBJT_AUDIT r_rule_audit" 0,
  sTable "r_resc_deny_access" "R_OBJT_DENY_ACCESS r_resc_deny_access" 0,
  sTable "r_coll_deny_access" "R_OBJT_DENY_ACCESS r_coll_deny_access" 0,
  sTable "r_data_deny_access" "R_OBJT_DENY_ACCESS r_data_deny_access" 0,
  sTable "r_met2_deny_access" "R_OBJT_DENY_ACCESS r_met2_deny_access" 0,
  sTable "r_rule_deny_access" "R_OBJT_DENY_ACCESS r_rule_deny_access" 0,
  sTable "r_resc_metamap" "R_OBJT_METAMAP r_resc_metamap" 0,
  sTable "r_resc_grp_metamap" "R_OBJT_METAMAP r_resc_grp_metamap" 0,
  sTable "r_coll_metamap" "R_OBJT_METAMAP r_coll_metamap" 0,sTable "r_data_metamap" "R_OBJT_METAMAP r_data_metamap" 0,
  sTable "r_met2_metamap" "R_OBJT_METAMAP r_met2_metamap" 0,sTable "r_rule_metamap" "R_OBJT_METAMAP r_rule_metamap" 0,
  sTable "r_msrvc_metamap" "R_OBJT_METAMAP r_msrvc_metamap" 0,sTable "r_user_metamap" "R_OBJT_METAMAP r_user_metamap" 0,
  sTable "r_resc_user_group" "R_USER_GROUP r_resc_user_group" 0,
  sTable "r_coll_user_group" "R_USER_GROUP r_coll_user_group" 0,
  sTable "r_data_user_group" "R_USER_GROUP r_data_user_group" 0,
  sTable "r_met2_user_group" "R_USER_GROUP r_met2_user_group" 0,
  sTable "r_rule_user_group" "R_USER_GROUP r_rule_user_group" 0,
  sTable "r_resc_da_user_group" "R_USER_GROUP r_resc_da_user_group" 0,
  sTable "r_coll_da_user_group" "R_USER_GROUP r_coll_da_user_group" 0,
  sTable "r_data_da_user_group" "R_USER_GROUP r_data_da_user_group" 0,
  sTable "r_met2_da_user_group" "R_USER_GROUP r_met2_da_user_group" 0,
  sTable "r_rule_da_user_group" "R_USER_GROUP r_rule_da_user_group" 0,
  sTable "r_resc_au_user_group" "R_USER_GROUP r_resc_au_user_group" 0,
  sTable "r_coll_au_user_group" "R_USER_GROUP r_coll_au_user_group" 0,
  sTable "r_data_au_user_group" "R_USER_GROUP r_data_au_user_group" 0,
  sTable "r_met2_au_user_group" "R_USER_GROUP r_met2_au_user_group" 0,
  sTable "r_rule_au_user_group" "R_USER_GROUP r_rule_au_user_group" 0,
  sTable "r_resc_user_main" "R_USER_MAIN r_resc_user_main" 0,sTable "r_coll_user_main" "R_USER_MAIN r_coll_user_main" 0,
  sTable "r_data_user_main" "R_USER_MAIN r_data_user_main" 0,sTable "r_met2_user_main" "R_USER_MAIN r_met2_user_main" 0,
  sTable "r_rule_user_main" "R_USER_MAIN r_rule_user_main" 0,
  sTable "r_resc_da_user_main" "R_USER_MAIN r_resc_da_user_main" 0,
  sTable "r_coll_da_user_main" "R_USER_MAIN r_coll_da_user_main" 0,
  sTable "r_data_da_user_main" "R_USER_MAIN r_data_da_user_main" 0,
  sTable "r_met2_da_user_main" "R_USER_MAIN r_met2_da_user_main" 0,
  sTable "r_rule_da_user_main" "R_USER_MAIN r_rule_da_user_main" 0,
  sTable "r_resc_au_user_main" "R_USER_MAIN r_resc_au_user_main" 0,
  sTable "r_coll_au_user_main" "R_USER_MAIN r_coll_au_user_main" 0,
  sTable "r_data_au_user_main" "R_USER_MAIN r_data_au_user_main" 0,
  sTable "r_met2_au_user_main" "R_USER_MAIN r_met2_au_user_main" 0,
  sTable "r_rule_au_user_main" "R_USER_MAIN r_rule_au_user_main" 0,
  sTable "r_quota_user_main" "R_USER_MAIN r_quota_user_main" 1,
  sTable "r_quota_user_group" "R_USER_MAIN r_quota_user_group" 1,
  sTable "r_quota_resc_main" "R_RESC_MAIN r_quota_resc_main" 1,
  sTable "r_resc_tokn_accs" "R_TOKN_MAIN r_resc_tokn_accs" 0,sTable "r_coll_tokn_accs" "R_TOKN_MAIN r_coll_tokn_accs" 0,
  sTable "r_data_tokn_accs" "R_TOKN_MAIN r_data_tokn_accs" 0,sTable "r_rule_tokn_accs" "R_TOKN_MAIN r_rule_tokn_accs" 0,
  sTable "r_met2_tokn_accs" "R_TOKN_MAIN r_met2_tokn_accs" 0,
  sTable "r_resc_tokn_deny_accs" "R_TOKN_MAIN r_resc_tokn_deny_accs" 0,
  sTable "r_coll_tokn_deny_accs" "R_TOKN_MAIN r_coll_tokn_deny_accs" 0,
  sTable "r_data_tokn_deny_accs" "R_TOKN_MAIN r_data_tokn_deny_accs" 0,
  sTable "r_rule_tokn_deny_accs" "R_TOKN_MAIN r_rule_tokn_deny_accs" 0,
  sTable "r_met2_tokn_deny_accs" "R_TOKN_MAIN r_met2_tokn_deny_accs" 0,
  sTable "r_resc_tokn_audit" "R_TOKN_MAIN r_resc_tokn_audit" 0,
  sTable "r_coll_tokn_audit" "R_TOKN_MAIN r_coll_tokn_audit" 0,
  sTable "r_data_tokn_audit" "R_TOKN_MAIN r_data_tokn_audit" 0,
  sTable "r_rule_tokn_audit" "R_TOKN_MAIN r_rule_tokn_audit" 0,
  sTable "r_met2_tokn_audit" "R_TOKN_MAIN r_met2_tokn_audit" 0,
  sTable "r_resc_meta_main" "R_META_MAIN r_resc_meta_main" 0,
  sTable "r_resc_grp_meta_main" "R_META_MAIN r_resc_grp_meta_main" 0,
  sTable "r_coll_meta_main" "R_META_MAIN r_coll_meta_main" 0,sTable "r_data_meta_main" "R_META_MAIN r_data_meta_main" 0,
  sTable "r_rule_meta_main" "R_META_MAIN r_rule_meta_main" 0,sTable "r_user_meta_main" "R_META_MAIN r_user_meta_main" 0,
  sTable "r_met2_meta_main" "R_META_MAIN r_met2_meta_main" 0,sTable "R_USER_GROUP" "R_USER_GROUP" 0,
  sTable "r_group_main" "R_USER_MAIN r_group_main" 0,sTable "R_RULE_EXEC" "R_RULE_EXEC" 0,
  sTable "R_OBJT_AUDIT" "R_OBJT_AUDIT" 0,sTable "R_SERVER_LOAD" "R_SERVER_LOAD" 0,
  sTable "R_SERVER_LOAD_DIGEST" "R_SERVER_LOAD_DIGEST" 0,sTable "R_USER_AUTH" "R_USER_AUTH" 0,
  sTable "R_RULE_BASE_MAP" "R_RULE_BASE_MAP" 0,sTable "R_RULE_DVM_MAP" "R_RULE_DVM_MAP" 0,
  sTable "R_RULE_FNM_MAP" "R_RULE_FNM_MAP" 0,sTable "R_RULE_DVM" "R_RULE_DVM" 0,sTable "R_RULE_FNM" "R_RULE_FNM" 0,
  sTable "R_QUOTA_MAIN" "R_QUOTA_MAIN" 0,sTable "R_QUOTA_USAGE" "R_QUOTA_USAGE" 0,
  sTable "R_MICROSRVC_MAIN" "R_MICROSRVC_MAIN" 0,sTable "R_MICROSRVC_VER" "R_MICROSRVC_VER" 0,
  sTable "r_msrvc_deny_access" "R_OBJT_DENY_ACCESS r_msrvc_deny_access" 0,
  sTable "r_msrvc_audit" "R_OBJT_AUDIT r_msrvc_audit" 0,sTable "r_msrvc_meta_main" "R_META_MAIN r_msrvc_meta_main" 0,
  sTable "r_msrvc_tokn_accs" "R_TOKN_MAIN r_msrvc_tokn_accs" 0,
  sTable "r_msrvc_user_group" "R_USER_GROUP r_msrvc_user_group" 0,
  sTable "r_msrvc_user_main" "R_USER_MAIN r_msrvc_user_main" 0,
  sTable "r_msrvc_tokn_deny_accs" "R_TOKN_MAIN r_msrvc_tokn_deny_accs" 0,
  sTable "r_msrvc_da_user_group" "R_USER_GROUP r_msrvc_da_user_group" 0,
  sTable "r_msrvc_da_user_main" "R_USER_MAIN r_msrvc_da_user_main" 0,
  sTable "r_msrvc_tokn_audit" "R_TOKN_MAIN r_msrvc_tokn_audit" 0,
  sTable "r_msrvc_au_user_group" "R_USER_GROUP r_msrvc_au_user_group" 0,
  sTable "r_msrvc_au_user_main" "R_USER_MAIN r_msrvc_au_user_main" 0,sTable "R_TICKET_MAIN" "R_TICKET_MAIN" 0,
  sTable "R_TICKET_ALLOWED_HOSTS" "R_TICKET_ALLOWED_HOSTS" 0,sTable "R_TICKET_ALLOWED_USERS" "R_TICKET_ALLOWED_USERS" 0,
  sTable "R_TICKET_ALLOWED_GROUPS" "R_TICKET_ALLOWED_GROUPS" 0,
  sTable "r_ticket_coll_main" "R_COLL_MAIN r_ticket_coll_main" 1,
  sTable "r_ticket_user_main" "R_USER_MAIN r_ticket_user_main" 1,
  sTable "r_ticket_data_coll_main" "R_COLL_MAIN r_ticket_data_coll_main" 1]

def icatColumns : List Column := [
  sColumn 101 "R_ZONE_MAIN" "zone_id",sColumn 102 "R_ZONE_MAIN" "zone_name",sColumn 103 "R_ZONE_MAIN" "zone_type_name",
  sColumn 104 "R_ZONE_MAIN" "zone_conn_string",sColumn 105 "R_ZONE_MAIN" "r_comment",
  sColumn 106 "R_ZONE_MAIN" "create_ts",sColumn 107 "R_ZONE_MAIN" "modify_ts",sColumn 201 "R_USER_MAIN" "user_id",
  sColumn 202 "R_USER_MAIN" "user_name",sColumn 203 "R_USER_MAIN" "user_type_name",
  sColumn 204 "R_USER_MAIN" "zone_name",sColumn 206 "R_USER_MAIN" "user_info",sColumn 207 "R_USER_MAIN" "r_comment",
  sColumn 208 "R_USER_MAIN" "create_ts",sColumn 209 "R_USER_MAIN" "modify_ts",sColumn 1600 "R_USER_AUTH" "user_id",
  sColumn 1601 "R_USER_AUTH" "user_auth_name",sColumn 205 "R_USER_MAIN" "r_comment",sColumn 301 "R_RESC_MAIN" "resc_id",
  sColumn 302 "R_RESC_MAIN" "resc_name",sColumn 303 "R_RESC_MAIN" "zone_name",
  sColumn 304 "R_RESC_MAIN" "resc_type_name",sColumn 305 "R_RESC_MAIN" "resc_class_name",
  sColumn 306 "R_RESC_MAIN" "resc_net",sColumn 307 "R_RESC_MAIN" "resc_def_path ",
  sColumn 308 "R_RESC_MAIN" "free_space",sColumn 314 "R_RESC_MAIN" "free_space_ts",
  sColumn 309 "R_RESC_MAIN" "resc_info",sColumn 310 "R_RESC_MAIN" "r_comment",sColumn 313 "R_RESC_MAIN" "resc_status",
  sColumn 311 "R_RESC_MAIN" "create_ts",sColumn 312 "R_RESC_MAIN" "modify_ts ",
  sColumn 319 "R_RESC_MAIN" "modify_ts_millis",sColumn 315 "R_RESC_MAIN" "resc_children ",
  sColumn 316 "R_RESC_MAIN" "resc_context ",sColumn 317 "R_RESC_MAIN" "resc_parent ",
  sColumn 318 "R_RESC_MAIN" "resc_parent_context",sColumn 401 "R_DATA_MAIN" "data_id",
  sColumn 402 "R_DATA_MAIN" "coll_id",sColumn 403 "R_DATA_MAIN" "data_name",sColumn 404 "R_DATA_MAIN" "data_repl_num",
  sColumn 405 "R_DATA_MAIN" "data_version",sColumn 406 "R_DATA_MAIN" "data_type_name",
  sColumn 407 "R_DATA_MAIN" "data_size",sColumn 409 "R_RESC_MAIN" "resc_name",sColumn 410 "R_DATA_MAIN" "data_path",
  sColumn 411 "R_DATA_MAIN" "data_owner_name",sColumn 412 "R_DATA_MAIN" "data_owner_zone",
  sColumn 413 "R_DATA_MAIN" "data_is_dirty",sColumn 414 "R_DATA_MAIN" "data_status",
  sColumn 415 "R_DATA_MAIN" "data_checksum",sColumn 416 "R_DATA_MAIN" "data_expiry_ts",
  sColumn 417 "R_DATA_MAIN" "data_map_id",sColumn 418 "R_DATA_MAIN" "r_comment",sColumn 419 "R_DATA_MAIN" "create_ts",
  sColumn 420 "R_DATA_MAIN" "modify_ts",sColumn 421 "R_DATA_MAIN" "data_mode",sColumn 424 "R_DATA_MAIN" "access_ts",
  sColumn 423 "R_DATA_MAIN" "resc_id",sColumn 700 "r_data_access" "access_type_id",
  sColumn 701 "r_data_tokn_accs" "token_name",sColumn 702 "r_data_tokn_accs" "token_namespace",
  sColumn 703 "r_data_access" "user_id",sColumn 704 "r_data_access" "object_id",
  sColumn 710 "r_coll_access" "access_type_id",sColumn 711 "r_coll_tokn_accs" "token_name",
  sColumn 712 "r_coll_tokn_accs" "token_namespace",sColumn 713 "r_coll_access" "user_id",
  sColumn 714 "r_coll_access" "object_id",sColumn 720 "r_resc_access" "access_type_id",
  sColumn 721 "r_resc_tokn_accs" "token_name",sColumn 722 "r_resc_tokn_accs" "token_namespace",
  sColumn 723 "r_resc_access" "user_id",sColumn 724 "r_resc_access" "object_id",sColumn 500 "R_COLL_MAIN" "coll_id",
  sColumn 501 "R_COLL_MAIN" "coll_name",sColumn 502 "R_COLL_MAIN" "parent_coll_name",
  sColumn 503 "R_COLL_MAIN" "coll_owner_name",sColumn 504 "R_COLL_MAIN" "coll_owner_zone",
  sColumn 505 "R_COLL_MAIN" "coll_map_id",sColumn 506 "R_COLL_MAIN" "coll_inheritance",
  sColumn 507 "R_COLL_MAIN" "r_comment",sColumn 508 "R_COLL_MAIN" "create_ts",sColumn 509 "R_COLL_MAIN" "modify_ts",
  sColumn 510 "R_COLL_MAIN" "coll_type",sColumn 511 "R_COLL_MAIN" "coll_info1",sColumn 512 "R_COLL_MAIN" "coll_info2",
  sColumn 600 "r_data_meta_main" "meta_attr_name",sColumn 601 "r_data_meta_main" "meta_attr_value",
  sColumn 602 "r_data_meta_main" "meta_attr_unit",sColumn 603 "r_data_meta_main" "meta_id",
  sColumn 604 "r_data_meta_main" "create_ts",sColumn 605 "r_data_meta_main" "modify_ts",
  sColumn 610 "r_coll_meta_main" "meta_attr_name",sColumn 611 "r_coll_meta_main" "meta_attr_value",
  sColumn 612 "r_coll_meta_main" "meta_attr_unit",sColumn 613 "r_coll_meta_main" "meta_id",
  sColumn 614 "r_coll_meta_main" "create_ts",sColumn 615 "r_coll_meta_main" "modify_ts",
  sColumn 620 "r_coll_meta_main" "meta_namespace",sColumn 621 "r_data_meta_main" "meta_namespace",
  sColumn 622 "r_resc_meta_main" "meta_namespace",sColumn 624 "r_resc_grp_meta_main" "meta_namespace",
  sColumn 623 "r_user_meta_main" "meta_namespace",sColumn 625 "r_rule_meta_main" "meta_namespace",
  sColumn 626 "r_msrvc_meta_main" "meta_namespace",sColumn 627 "r_met2_meta_main" "meta_namespace",
  sColumn 630 "r_resc_meta_main" "meta_attr_name",sColumn 631 "r_resc_meta_main" "meta_attr_value",
  sColumn 632 "r_resc_meta_main" "meta_attr_unit",sColumn 633 "r_resc_meta_main" "meta_id",
  sColumn 634 "r_resc_meta_main" "create_ts",sColumn 635 "r_resc_meta_main" "modify_ts",
  sColumn 650 "r_resc_grp_meta_main" "meta_attr_name",sColumn 651 "r_resc_grp_meta_main" "meta_attr_value",
  sColumn 652 "r_resc_grp_meta_main" "meta_attr_unit",sColumn 653 "r_resc_grp_meta_main" "meta_id",
  sColumn 654 "r_resc_grp_meta_main" "create_ts",sColumn 655 "r_resc_grp_meta_main" "modify_ts",
  sColumn 640 "r_user_meta_main" "meta_attr_name",sColumn 641 "r_user_meta_main" "meta_attr_value",
  sColumn 642 "r_user_meta_main" "meta_attr_unit",sColumn 643 "r_user_meta_main" "meta_id",
  sColumn 644 "r_user_meta_main" "create_ts",sColumn 645 "r_user_meta_main" "modify_ts",
  sColumn 660 "r_rule_meta_main" "meta_attr_name",sColumn 661 "r_rule_meta_main" "meta_attr_value",
  sColumn 662 "r_rule_meta_main" "meta_attr_unit",sColumn 663 "r_rule_meta_main" "meta_id",
  sColumn 664 "r_rule_meta_main" "create_ts",sColumn 665 "r_rule_meta_main" "modify_ts",
  sColumn 670 "r_msrvc_meta_main" "meta_attr_name",sColumn 671 "r_msrvc_meta_main" "meta_attr_value",
  sColumn 672 "r_msrvc_meta_main" "meta_attr_unit",sColumn 673 "r_msrvc_meta_main" "meta_id",
  sColumn 674 "r_msrvc_meta_main" "create_ts",sColumn 675 "r_msrvc_meta_main" "modify_ts",
  sColumn 680 "r_met2_meta_main" "meta_attr_name",sColumn 681 "r_met2_meta_main" "meta_attr_value",
  sColumn 682 "r_met2_meta_main" "meta_attr_unit",sColumn 683 "r_met2_meta_main" "meta_id",
  sColumn 684 "r_met2_meta_main" "create_ts",sColumn 685 "r_met2_meta_main" "modify_ts",
  sColumn 900 "R_USER_GROUP" "group_user_id",sColumn 901 "r_group_main" "user_name",
  sColumn 1000 "R_RULE_EXEC" "rule_exec_id",sColumn 1001 "R_RULE_EXEC" "rule_name",
  sColumn 1002 "R_RULE_EXEC" "rei_file_path",sColumn 1003 "R_RULE_EXEC" "user_name",
  sColumn 1004 "R_RULE_EXEC" "exe_address",sColumn 1005 "R_RULE_EXEC" "exe_time",
  sColumn 1006 "R_RULE_EXEC" "exe_frequency",sColumn 1007 "R_RULE_EXEC" "priority",
  sColumn 1008 "R_RULE_EXEC" "estimated_exe_time",sColumn 1009 "R_RULE_EXEC" "notification_addr",
  sColumn 1010 "R_RULE_EXEC" "last_exe_time",sColumn 1011 "R_RULE_EXEC" "exe_status",
  sColumn 1012 "R_RULE_EXEC" "exe_context",sColumn 1013 "R_RULE_EXEC" "lock_host",
  sColumn 1014 "R_RULE_EXEC" "lock_host_pid",sColumn 1015 "R_RULE_EXEC" "lock_ts",
  sColumn 1100 "R_TOKN_MAIN" "token_namespace",sColumn 1101 "R_TOKN_MAIN" "token_id",
  sColumn 1102 "R_TOKN_MAIN" "token_name",sColumn 1103 "R_TOKN_MAIN" "token_value",
  sColumn 1104 "R_TOKN_MAIN" "token_value2",sColumn 1105 "R_TOKN_MAIN" "token_value3",
  sColumn 1106 "R_TOKN_MAIN" "r_comment",sColumn 1107 "R_TOKN_MAIN" "create_ts",sColumn 1108 "R_TOKN_MAIN" "modify_ts",
  sColumn 1200 "R_OBJT_AUDIT" "object_id",sColumn 1201 "R_OBJT_AUDIT" "user_id",sColumn 1202 "R_OBJT_AUDIT" "action_id",
  sColumn 1203 "R_OBJT_AUDIT" "r_comment",sColumn 1204 "R_OBJT_AUDIT" "create_ts",
  sColumn 1205 "R_OBJT_AUDIT" "modify_ts",sColumn 1300 "r_coll_user_main" "user_name",
  sColumn 1301 "r_coll_user_main" "zone_name",sColumn 1310 "r_data_user_main" "user_name",
  sColumn 1311 "r_data_user_main" "zone_name",sColumn 1320 "r_resc_user_main" "user_name",
  sColumn 1321 "r_resc_user_main" "zone_name",sColumn 1400 "R_SERVER_LOAD" "host_name",
  sColumn 1401 "R_SERVER_LOAD" "resc_name",sColumn 1402 "R_SERVER_LOAD" "cpu_used",
  sColumn 1403 "R_SERVER_LOAD" "mem_used",sColumn 1404 "R_SERVER_LOAD" "swap_used",
  sColumn 1405 "R_SERVER_LOAD" "runq_load",sColumn 1406 "R_SERVER_LOAD" "disk_space",
  sColumn 1407 "R_SERVER_LOAD" "net_input",sColumn 1408 "R_SERVER_LOAD" "net_output",
  sColumn 1409 "R_SERVER_LOAD" "create_ts",sColumn 1500 "R_SERVER_LOAD_DIGEST" "resc_name",
  sColumn 1501 "R_SERVER_LOAD_DIGEST" "load_factor",sColumn 1502 "R_SERVER_LOAD_DIGEST" "create_ts",
  sColumn 1700 "R_RULE_MAIN" "rule_id",sColumn 1701 "R_RULE_MAIN" "rule_version",
  sColumn 1702 "R_RULE_MAIN" "rule_base_name",sColumn 1703 "R_RULE_MAIN" "rule_name",
  sColumn 1704 "R_RULE_MAIN" "rule_event",sColumn 1705 "R_RULE_MAIN" "rule_condition",
  sColumn 1706 "R_RULE_MAIN" "rule_body",sColumn 1707 "R_RULE_MAIN" "rule_recovery",
  sColumn 1708 "R_RULE_MAIN" "rule_status",sColumn 1709 "R_RULE_MAIN" "rule_owner_name",
  sColumn 1710 "R_RULE_MAIN" "rule_owner_zone",sColumn 1711 "R_RULE_MAIN" "rule_descr_1",
  sColumn 1712 "R_RULE_MAIN" "rule_descr_2",sColumn 1713 "R_RULE_MAIN" "input_params",
  sColumn 1714 "R_RULE_MAIN" "output_params",sColumn 1715 "R_RULE_MAIN" "dollar_vars",
  sColumn 1716 "R_RULE_MAIN" "icat_elements",sColumn 1717 "R_RULE_MAIN" "sideeffects",
  sColumn 1718 "R_RULE_MAIN" "r_comment",sColumn 1719 "R_RULE_MAIN" "create_ts",sColumn 1720 "R_RULE_MAIN" "modify_ts",
  sColumn 1721 "R_RULE_BASE_MAP" "map_version",sColumn 1728 "R_RULE_BASE_MAP" "map_priority",
  sColumn 1722 "R_RULE_BASE_MAP" "map_base_name",sColumn 1723 "R_RULE_BASE_MAP" "map_owner_name",
  sColumn 1724 "R_RULE_BASE_MAP" "map_owner_zone",sColumn 1725 "R_RULE_BASE_MAP" "r_comment",
  sColumn 1726 "R_RULE_BASE_MAP" "create_ts",sColumn 1727 "R_RULE_BASE_MAP" "modify_ts",
  sColumn 1800 "R_RULE_DVM" "dvm_id",sColumn 1801 "R_RULE_DVM" "dvm_version",sColumn 1802 "R_RULE_DVM" "dvm_base_name",
  sColumn 1803 "R_RULE_DVM" "dvm_ext_var_name",sColumn 1804 "R_RULE_DVM" "dvm_condition",
  sColumn 1805 "R_RULE_DVM" "dvm_int_map_path",sColumn 1806 "R_RULE_DVM" "dvm_status",
  sColumn 1807 "R_RULE_DVM" "dvm_owner_name",sColumn 1808 "R_RULE_DVM" "dvm_owner_zone",
  sColumn 1809 "R_RULE_DVM" "r_comment",sColumn 1810 "R_RULE_DVM" "create_ts",sColumn 1811 "R_RULE_DVM" "modify_ts",
  sColumn 1812 "R_RULE_DVM_MAP" "map_dvm_version",sColumn 1813 "R_RULE_DVM_MAP" "map_dvm_base_name",
  sColumn 1814 "R_RULE_DVM_MAP" "map_owner_name",sColumn 1815 "R_RULE_DVM_MAP" "map_owner_zone",
  sColumn 1816 "R_RULE_DVM_MAP" "r_comment",sColumn 1817 "R_RULE_DVM_MAP" "create_ts",
  sColumn 1818 "R_RULE_DVM_MAP" "modify_ts",sColumn 1900 "R_RULE_FNM" "fnm_id",sColumn 1901 "R_RULE_FNM" "fnm_version",
  sColumn 1902 "R_RULE_FNM" "fnm_base_name",sColumn 1903 "R_RULE_FNM" "fnm_ext_func_name",
  sColumn 1904 "R_RULE_FNM" "fnm_int_func_name",sColumn 1905 "R_RULE_FNM" "fnm_status",
  sColumn 1906 "R_RULE_FNM" "fnm_owner_name",sColumn 1907 "R_RULE_FNM" "fnm_owner_zone",
  sColumn 1908 "R_RULE_FNM" "r_comment",sColumn 1909 "R_RULE_FNM" "create_ts",sColumn 1910 "R_RULE_FNM" "modify_ts",
  sColumn 1911 "R_RULE_FNM_MAP" "map_fnm_version",sColumn 1912 "R_RULE_FNM_MAP" "map_fnm_base_name",
  sColumn 1913 "R_RULE_FNM_MAP" "map_owner_name",sColumn 1914 "R_RULE_FNM_MAP" "map_owner_zone",
  sColumn 1915 "R_RULE_FNM_MAP" "r_comment",sColumn 1916 "R_RULE_FNM_MAP" "create_ts",
  sColumn 1917 "R_RULE_FNM_MAP" "modify_ts",sColumn 2000 "R_QUOTA_MAIN" "user_id",sColumn 2001 "R_QUOTA_MAIN" "resc_id",
  sColumn 2002 "R_QUOTA_MAIN" "quota_limit",sColumn 2003 "R_QUOTA_MAIN" "quota_over",
  sColumn 2004 "R_QUOTA_MAIN" "modify_ts",sColumn 2010 "R_QUOTA_USAGE" "user_id",sColumn 2011 "R_QUOTA_USAGE" "resc_id",
  sColumn 2012 "R_QUOTA_USAGE" "quota_usage",sColumn 2013 "R_QUOTA_USAGE" "modify_ts",
  sColumn 2021 "r_quota_user_main" "user_name",sColumn 2023 "r_quota_user_group" "user_type_name",
  sColumn 2020 "r_quota_resc_main" "resc_name",sColumn 2022 "r_quota_user_main" "zone_name",
  sColumn 2100 "R_MICROSRVC_MAIN" "msrvc_id",sColumn 2116 "R_MICROSRVC_MAIN" "msrvc_module_name",
  sColumn 2101 "R_MICROSRVC_MAIN" "msrvc_name",sColumn 2102 "R_MICROSRVC_MAIN" "msrvc_signature",
  sColumn 2103 "R_MICROSRVC_MAIN" "msrvc_doxygen",sColumn 2104 "R_MICROSRVC_MAIN" "msrvc_variations",
  sColumn 2106 "R_MICROSRVC_MAIN" "msrvc_owner_name",sColumn 2107 "R_MICROSRVC_MAIN" "msrvc_owner_zone",
  sColumn 2108 "R_MICROSRVC_MAIN" "r_comment",sColumn 2109 "R_MICROSRVC_MAIN" "create_ts",
  sColumn 2110 "R_MICROSRVC_MAIN" "modify_ts",sColumn 2111 "R_MICROSRVC_VER" "msrvc_version",
  sColumn 2112 "R_MICROSRVC_VER" "msrvc_host",sColumn 2113 "R_MICROSRVC_VER" "msrvc_location",
  sColumn 2114 "R_MICROSRVC_VER" "msrvc_language",sColumn 2115 "R_MICROSRVC_VER" "msrvc_type_name",
  sColumn 2105 "R_MICROSRVC_VER" "msrvc_status",sColumn 2150 "R_MICROSRVC_VER" "msrvc_owner_name",
  sColumn 2151 "R_MICROSRVC_VER" "msrvc_owner_zone",sColumn 2152 "R_MICROSRVC_VER" "r_comment",
  sColumn 2153 "R_MICROSRVC_VER" "create_ts",sColumn 2154 "R_MICROSRVC_VER" "modify_ts",
  sColumn 730 "r_meta_access" "access_type_id",sColumn 731 "r_meta_tokn_accs" "token_name",
  sColumn 732 "r_meta_tokn_accs" "token_namespace",sColumn 733 "r_meta_access" "user_id",
  sColumn 734 "r_meta_access" "object_id",sColumn 720 "r_resc_access" "access_type_id",
  sColumn 721 "r_resc_tokn_accs" "token_name",sColumn 722 "r_resc_tokn_accs" "token_namespace",
  sColumn 723 "r_resc_access" "user_id",sColumn 724 "r_resc_access" "object_id",
  sColumn 740 "r_rule_access" "access_type_id",sColumn 741 "r_rule_tokn_accs" "token_name",
  sColumn 742 "r_rule_tokn_accs" "token_namespace",sColumn 743 "r_rule_access" "user_id",
  sColumn 744 "r_rule_access" "object_id",sColumn 750 "r_msrvc_access" "access_type_id",
  sColumn 751 "r_msrvc_tokn_accs" "token_name",sColumn 752 "r_msrvc_tokn_accs" "token_namespace",
  sColumn 753 "r_msrvc_access" "user_id",sColumn 754 "r_msrvc_access" "object_id",
  sColumn 2200 "R_TICKET_MAIN" "ticket_id",sColumn 2201 "R_TICKET_MAIN" "ticket_string",
  sColumn 2202 "R_TICKET_MAIN" "ticket_type",sColumn 2203 "R_TICKET_MAIN" "user_id",
  sColumn 2204 "R_TICKET_MAIN" "object_id",sColumn 2205 "R_TICKET_MAIN" "object_type",
  sColumn 2206 "R_TICKET_MAIN" "uses_limit",sColumn 2207 "R_TICKET_MAIN" "uses_count",
  sColumn 2212 "R_TICKET_MAIN" "write_file_limit",sColumn 2211 "R_TICKET_MAIN" "write_file_count",
  sColumn 2214 "R_TICKET_MAIN" "write_byte_limit",sColumn 2213 "R_TICKET_MAIN" "write_byte_count",
  sColumn 2208 "R_TICKET_MAIN" "ticket_expiry_ts",sColumn 2209 "R_TICKET_MAIN" "create_ts",
  sColumn 2210 "R_TICKET_MAIN" "modify_ts",sColumn 2221 "R_TICKET_ALLOWED_HOSTS" "host",
  sColumn 2220 "R_TICKET_ALLOWED_HOSTS" "ticket_id",sColumn 2223 "R_TICKET_ALLOWED_USERS" "user_name",
  sColumn 2222 "R_TICKET_ALLOWED_USERS" "ticket_id",sColumn 2225 "R_TICKET_ALLOWED_GROUPS" "group_name",
  sColumn 2224 "R_TICKET_ALLOWED_GROUPS" "ticket_id",sColumn 2226 "R_DATA_MAIN" "data_name",
  sColumn 2228 "r_ticket_coll_main" "coll_name",sColumn 2229 "r_ticket_user_main" "user_name",
  sColumn 2230 "r_ticket_user_main" "zone_name",sColumn 2227 "r_ticket_data_coll_main" "coll_name"]

-- An unknown name is logged and taken as table 0.
def fkFindName (tableName : Text) : Nat := (icatTables.findIdx? (fun t => t.tableName == tableName)).getD 0

def sFklink (table1 table2 connectingSQL : String) {t u c : Text} (_ : String.ofList t = table1 := by exact rfl)
    (_ : String.ofList u = table2 := by exact rfl) (_ : String.ofList c = connectingSQL := by exact rfl) : Link :=
  ⟨fkFindName t,fkFindName u,boundedCopy MAX_TSQL c⟩

def icatLinks : List Link := [
  sFklink "R_COLL_MAIN" "R_DATA_MAIN" "R_COLL_MAIN.coll_id = R_DATA_MAIN.coll_id",
  sFklink "R_RESC_GROUP" "R_RESC_MAIN" "R_RESC_GROUP.resc_id = R_RESC_MAIN.resc_id",
  sFklink "R_RESC_MAIN" "r_resc_metamap" "R_RESC_MAIN.resc_id = r_resc_metamap.object_id",
  sFklink "R_RESC_MAIN" "R_DATA_MAIN" "R_RESC_MAIN.resc_id = R_DATA_MAIN.resc_id",
  sFklink "R_RESC_GROUP" "r_resc_grp_metamap" "R_RESC_GROUP.resc_group_id = r_resc_grp_metamap.object_id",
  sFklink "R_COLL_MAIN" "r_coll_metamap" "R_COLL_MAIN.coll_id = r_coll_metamap.object_id",
  sFklink "R_DATA_MAIN" "r_data_metamap" "R_DATA_MAIN.data_id = r_data_metamap.object_id",
  sFklink "R_RULE_MAIN" "r_rule_metamap" "R_RULE_MAIN.rule_id = r_rule_metamap.object_id",
  sFklink "R_USER_MAIN" "r_user_metamap" "R_USER_MAIN.user_id = r_user_metamap.object_id",
  sFklink "r_met2_main" "r_met2_metamap" "r_met2_main.meta_id = r_met2_metamap.object_id",
  sFklink "R_RESC_MAIN" "r_resc_access" "R_RESC_MAIN.resc_id = r_resc_access.object_id",
  sFklink "R_COLL_MAIN" "r_coll_access" "R_COLL_MAIN.coll_id = r_coll_access.object_id",
  sFklink "R_DATA_MAIN" "r_data_access" "R_DATA_MAIN.data_id = r_data_access.object_id",
  sFklink "R_RULE_MAIN" "r_rule_access" "R_RULE_MAIN.rule_id = r_rule_access.object_id",
  sFklink "r_met2_main" "r_met2_access" "r_met2_main.meta_id = r_met2_access.object_id",
  sFklink "R_RESC_MAIN" "r_resc_deny_access" "R_RESC_MAIN.resc_id = r_resc_deny_access.object_id",
  sFklink "R_COLL_MAIN" "r_coll_deny_access" "R_COLL_MAIN.coll_id = r_coll_deny_access.object_id",
  sFklink "R_DATA_MAIN" "r_data_deny_access" "R_DATA_MAIN.data_id = r_data_deny_access.object_id",
  sFklink "R_RULE_MAIN" "r_rule_deny_access" "R_RULE_MAIN.rule_id = r_rule_deny_access.object_id",
  sFklink "r_met2_main" "r_met2_deny_access" "r_met2_main.meta_id = r_met2_deny_access.object_id",
  sFklink "R_RESC_MAIN" "r_resc_audit" "R_RESC_MAIN.resc_id = r_resc_audit.object_id",
  sFklink "R_COLL_MAIN" "r_coll_audit" "R_COLL_MAIN.coll_id = r_coll_audit.object_id",
  sFklink "R_DATA_MAIN" "r_data_audit" "R_DATA_MAIN.data_id = r_data_audit.object_id",
  sFklink "R_RULE_MAIN" "r_rule_audit" "R_RULE_MAIN.rule_id = r_rule_audit.object_id",
  sFklink "r_met2_main" "r_met2_audit" "r_met2_main.meta_id = r_met2_audit.object_id.meta_id",
  sFklink "r_resc_metamap" "r_resc_meta_main" "r_resc_metamap.meta_id = r_resc_meta_main.meta_id",
  sFklink "r_resc_grp_metamap" "r_resc_grp_meta_main" "r_resc_grp_metamap.meta_id = r_resc_grp_meta_main.meta_id",
  sFklink "r_coll_metamap" "r_coll_meta_main" "r_coll_metamap.meta_id = r_coll_meta_main.meta_id",
  sFklink "r_data_metamap" "r_data_meta_main" "r_data_metamap.meta_id = r_data_meta_main.meta_id",
  sFklink "r_rule_metamap" "r_rule_meta_main" "r_rule_metamap.meta_id = r_rule_meta_main.meta_id",
  sFklink "r_user_metamap" "r_user_meta_main" "r_user_metamap.meta_id = r_user_meta_main.meta_id",
  sFklink "r_met2_metamap" "r_met2_meta_main" "r_met2_metamap.object_id = r_met2_meta_main.meta_id",
  sFklink "r_resc_access" "r_resc_tokn_accs" "r_resc_access.access_type_id = r_resc_tokn_accs.token_id",
  sFklink "r_resc_access" "r_resc_user_group" "r_resc_access.user_id = r_resc_user_group.group_user_id",
  sFklink "r_coll_access" "r_coll_tokn_accs" "r_coll_access.access_type_id = r_coll_tokn_accs.token_id",
  sFklink "r_coll_access" "r_coll_user_group" "r_coll_access.user_id = r_coll_user_group.group_user_id",
  sFklink "r_data_access" "r_data_tokn_accs" "r_data_access.access_type_id = r_data_tokn_accs.token_id",
  sFklink "r_data_access" "r_data_user_group" "r_data_access.user_id = r_data_user_group.group_user_id",
  sFklink "r_rule_access" "r_rule_tokn_accs" "r_rule_access.access_typ_id = r_rule_tokn_accs.token_id",
  sFklink "r_rule_access" "r_rule_user_group" "r_rule_access.user_id = r_rule_user_group.group_user_id",
  sFklink "r_met2_access" "r_met2_tokn_accs" "r_met2_access.access_typ_id = r_met2_tokn_accs.token_id",
  sFklink "r_met2_access" "r_met2_user_group" "r_met2_access.user_id = r_met2_user_group.group_user_id",
  sFklink "r_resc_deny_access" "r_resc_tokn_deny_accs"
    "r_resc_deny_access.access_typ_id = r_resc_tokn_deny_accs.token_id",
  sFklink "r_resc_deny_access" "r_resc_da_user_group" "r_resc_deny_access.user_id = r_resc_da_user_group.group_user_id",
  sFklink "r_coll_deny_access" "r_coll_tokn_deny_accs"
    "r_coll_deny_access.access_typ_id = r_coll_tokn_deny_accs.token_id",
  sFklink "r_coll_deny_access" "r_coll_da_user_group" "r_coll_deny_access.user_id = r_coll_da_user_group.group_user_id",
  sFklink "r_data_deny_access" "r_data_tokn_deny_accs"
    "r_data_deny_access.access_typ_id = r_data_tokn_deny_accs.token_id",
  sFklink "r_data_deny_access" "r_data_da_user_group" "r_data_deny_access.user_id = r_data_da_user_group.group_user_id",
  sFklink "r_rule_deny_access" "r_rule_tokn_deny_accs"
    "r_rule_deny_access.access_typ_id = r_rule_tokn_deny_accs.token_id",
  sFklink "r_rule_deny_access" "r_rule_da_user_group" "r_rule_deny_access.user_id = r_rule_da_user_group.group_user_id",
  sFklink "r_met2_deny_access" "r_met2_tokn_deny_accs"
    "r_met2_deny_access.access_typ_id = r_met2_tokn_deny_accs.token_id",
  sFklink "r_met2_deny_access" "r_met2_da_user_group" "r_met2_deny_access.user_id = r_met2_da_user_group.group_user_id",
  sFklink "r_resc_audit" "r_resc_tokn_audit" "r_resc_audit.action_id = r_resc_tokn_audit.token_id",
  sFklink "r_resc_audit" "r_resc_au_user_group" "r_resc_audit.user_id = r_resc_au_user_group.group_user_id",
  sFklink "r_coll_audit" "r_coll_tokn_audit" "r_coll_audit.action_id = r_coll_tokn_audit.token_id",
  sFklink "r_coll_audit" "r_coll_au_user_group" "r_coll_audit.user_id = r_coll_au_user_group.group_user_id",
  sFklink "r_data_audit" "r_data_tokn_audit" "r_data_audit.action_id = r_data_tokn_audit.token_id",
  sFklink "r_data_audit" "r_data_au_user_group" "r_data_audit.user_id = r_data_au_user_group.group_user_id",
  sFklink "r_rule_audit" "r_rule_tokn_audit" "r_rule_audit.action_id = r_rule_tokn_audit.token_id",
  sFklink "r_rule_audit" "r_rule_au_user_group" "r_rule_audit.user_id = r_rule_au_user_group.group_user_id",
  sFklink "r_met2_audit" "r_met2_tokn_audit" "r_met2_audit.action_id = r_met2_tokn_audit.token_id",
  sFklink "r_met2_audit" "r_met2_au_user_group" "r_met2_audit.user_id = r_met2_au_user_group.group_user_id",
  sFklink "r_resc_user_group" "r_resc_user_main" "r_resc_user_group.user_id = r_resc_user_main.user_id",
  sFklink "r_coll_user_group" "r_coll_user_main" "r_coll_user_group.user_id = r_coll_user_main.user_id",
  sFklink "r_data_user_group" "r_data_user_main" "r_data_user_group.user_id = r_data_user_main.user_id",
  sFklink "r_rule_user_group" "r_rule_user_main" "r_rule_user_group.user_id = r_rule_user_main.user_id",
  sFklink "r_met2_user_group" "r_met2_user_main" "r_met2_user_group.user_id = r_met2_user_main.user_id",
  sFklink "r_resc_da_user_group" "r_resc_da_user_main" "r_resc_da_user_group.user_id = r_resc_da_user_main.user_id",
  sFklink "r_coll_da_user_group" "r_coll_da_user_main" "r_coll_da_user_group.user_id = r_coll_da_user_main.user_id",
  sFklink "r_data_da_user_group" "r_data_da_user_main" "r_data_da_user_group.user_id = r_data_da_user_main.user_id",
  sFklink "r_rule_da_user_group" "r_rule_da_user_main" "r_rule_da_user_group.user_id = r_rule_da_user_main.user_id",
  sFklink "r_met2_da_user_group" "r_met2_da_user_main" "r_met2_da_user_group.user_id = r_met2_da_user_main.user_id",
  sFklink "r_resc_au_user_group" "r_resc_au_user_main" "r_resc_au_user_group.user_id = r_resc_au_user_main.user_id",
  sFklink "r_coll_au_user_group" "r_coll_au_user_main" "r_coll_au_user_group.user_id = r_coll_au_user_main.user_id",
  sFklink "r_data_au_user_group" "r_data_au_user_main" "r_data_au_user_group.user_id = r_data_au_user_main.user_id",
  sFklink "r_rule_au_user_group" "r_rule_au_user_main" "r_rule_au_user_group.user_id = r_rule_au_user_main.user_id",
  sFklink "r_met2_au_user_group" "r_met2_au_user_main" "r_met2_au_user_group.user_id = r_met2_au_user_main.user_id",
  sFklink "R_USER_MAIN" "R_USER_PASSWORD" "R_USER_MAIN.user_id = R_USER_PASSWORD.user_id",
  sFklink "R_USER_MAIN" "R_USER_AUTH" "R_USER_MAIN.user_id = R_USER_AUTH.user_id",
  sFklink "R_USER_MAIN" "R_USER_SESSION_KEY" "R_USER_MAIN.user_id = R_USER_SESSION_KEY.user_id",
  sFklink "R_USER_MAIN" "r_data_access" "R_USER_MAIN.user_id = r_data_access.user_id",
  sFklink "R_USER_MAIN" "R_USER_GROUP" "R_USER_MAIN.user_id = R_USER_GROUP.user_id",
  sFklink "R_USER_GROUP" "r_group_main" "R_USER_GROUP.group_user_id = r_group_main.user_id",
  sFklink "R_USER_MAIN" "R_OBJT_AUDIT" "R_USER_MAIN.user_id = R_OBJT_AUDIT.user_id",
  sFklink "R_QUOTA_MAIN" "r_quota_user_main" "R_QUOTA_MAIN.user_id = r_quota_user_main.user_id",
  sFklink "R_QUOTA_MAIN" "r_quota_resc_main" "R_QUOTA_MAIN.resc_id = r_quota_resc_main.resc_id",
  sFklink "R_QUOTA_MAIN" "r_quota_user_group" "R_QUOTA_MAIN.user_id = r_quota_user_group.user_id",
  sFklink "R_QUOTA_USAGE" "r_quota_user_main" "R_QUOTA_USAGE.user_id = r_quota_user_main.user_id",
  sFklink "R_QUOTA_USAGE" "r_quota_resc_main" "R_QUOTA_USAGE.resc_id = r_quota_resc_main.resc_id",
  sFklink "R_QUOTA_USAGE" "r_quota_user_group" "R_QUOTA_USAGE.user_id = r_quota_user_group.user_id",
  sFklink "R_RULE_BASE_MAP" "R_RULE_MAIN" "R_RULE_BASE_MAP.rule_id = R_RULE_MAIN.rule_id",
  sFklink "R_RULE_DVM_MAP" "R_RULE_DVM" "R_RULE_DVM_MAP.dvm_id = R_RULE_DVM.dvm_id",
  sFklink "R_RULE_FNM_MAP" "R_RULE_FNM" "R_RULE_FNM_MAP.fnm_id = R_RULE_FNM.fnm_id",
  sFklink "R_MICROSRVC_MAIN" "R_MICROSRVC_VER" "R_MICROSRVC_MAIN.msrvc_id = R_MICROSRVC_VER.msrvc_id",
  sFklink "R_MICROSRVC_MAIN" "r_msrvc_metamap" "R_MICROSRVC_MAIN.msrvc_id = r_msrvc_metamap.object_id",
  sFklink "r_msrvc_metamap" "r_msrvc_meta_main" "r_msrvc_metamap.meta_id = r_msrvc_meta_main.meta_id",
  sFklink "R_MICROSRVC_MAIN" "r_msrvc_access" "R_MICROSRVC_MAIN.msrvc_id = r_msrvc_access.object_id",
  sFklink "r_msrvc_access" "r_msrvc_tokn_accs" "r_msrvc_access.access_typ_id = r_msrvc_tokn_accs.token_id",
  sFklink "r_msrvc_access" "r_msrvc_user_group" "r_msrvc_access.user_id = r_msrvc_user_group.group_user_id",
  sFklink "r_msrvc_user_group" "r_msrvc_user_main" "r_msrvc_user_group.user_id = r_msrvc_user_main.user_id",
  sFklink "R_MICROSRVC_MAIN" "r_msrvc_deny_access" "R_MICROSRVC_MAIN.msrvc_id = r_msrvc_deny_access.object_id",
  sFklink "r_msrvc_deny_access" "r_msrvc_tokn_deny_accs"
    "r_msrvc_deny_access.access_typ_id = r_msrvc_tokn_deny_accs.token_id",
  sFklink "r_msrvc_deny_access" "r_msrvc_da_user_group"
    "r_msrvc_deny_access.user_id = r_msrvc_da_user_group.group_user_id",
  sFklink "r_msrvc_da_user_group" "r_msrvc_da_user_main" "r_msrvc_da_user_group.user_id = r_msrvc_da_user_main.user_id",
  sFklink "R_MICROSRVC_MAIN" "r_msrvc_audit" "R_MICROSRVC_MAIN.msrvc_id = r_msrvc_audit.object_id",
  sFklink "r_msrvc_audit" "r_msrvc_tokn_audit" "r_msrvc_audit.action_id = r_msrvc_tokn_audit.token_id",
  sFklink "r_msrvc_audit" "r_msrvc_au_user_group" "r_msrvc_audit.user_id = r_msrvc_au_user_group.group_user_id",
  sFklink "r_msrvc_au_user_group" "r_msrvc_au_user_main" "r_msrvc_au_user_group.user_id = r_msrvc_au_user_main.user_id",
  sFklink "R_TICKET_MAIN" "R_TICKET_ALLOWED_HOSTS" "R_TICKET_MAIN.ticket_id = R_TICKET_ALLOWED_HOSTS.ticket_id",
  sFklink "R_TICKET_MAIN" "R_TICKET_ALLOWED_USERS" "R_TICKET_MAIN.ticket_id = R_TICKET_ALLOWED_USERS.ticket_id",
  sFklink "R_TICKET_MAIN" "R_TICKET_ALLOWED_GROUPS" "R_TICKET_MAIN.ticket_id = R_TICKET_ALLOWED_GROUPS.ticket_id",
  sFklink "R_TICKET_MAIN" "R_DATA_MAIN" "R_TICKET_MAIN.object_id = R_DATA_MAIN.data_id",
  sFklink "R_TICKET_MAIN" "r_ticket_coll_main" "R_TICKET_MAIN.object_id = r_ticket_coll_main.coll_id",
  sFklink "R_TICKET_MAIN" "r_ticket_data_coll_main"
    "R_TICKET_MAIN.object_id = R_DATA_MAIN.data_id AND R_DATA_MAIN.coll_id = r_ticket_data_coll_main.coll_id",
  sFklink "R_TICKET_MAIN" "r_ticket_user_main" "R_TICKET_MAIN.user_id = r_ticket_user_main.user_id"]

theorem tableTexts : ∀ t ∈ icatTables, nameText t.tableName = true ∧ setupText t.tableAlias = true := by decide +kernel

theorem columnTexts : ∀ c ∈ icatColumns, nameText c.tableName = true ∧ paddedName c.columnName = true := by
  decide +kernel

theorem linkTexts : ∀ l ∈ icatLinks, setupText l.connectingSQL = true ∧ joinText l.connectingSQL = true ∧
    l.connectingSQL.length < MAX_TSQL := by decide +kernel

theorem linked : ∀ l ∈ icatLinks, l.table1 < icatTables.length ∧ l.table2 < icatTables.length := by decide +kernel

def splitCompressed (separator : Char) : Text → Bool → Text → List Text
  | piece,_,[] => [piece]
  | piece,afterSeparator,c::rest =>
    if c = separator then
      if afterSeparator then splitCompressed separator piece true rest
      else piece::splitCompressed separator [] true rest
    else splitCompressed separator (piece ++ [c]) false rest

theorem splitCompressedSome (separator piece afterSeparator t) :
    splitCompressed separator piece afterSeparator t ≠ [] := by
  induction t generalizing piece afterSeparator with
  | nil => simp [splitCompressed]
  | cons c t ih =>
    rw [splitCompressed]
    split
    · split
      · exact ih _ _
      · simp
    · exact ih _ _

def icatGeneralQuerySetup : Setup where
  tables := icatTables
  columns := icatColumns
  links := icatLinks
  split := splitCompressed '/' [] false
  tableTexts := tableTexts
  columnTexts := columnTexts
  linkTexts := linkTexts
  linked := linked
  splitSome := splitCompressedSome '/' [] false

example : icatGeneralQuerySetup.split (lit "/a//b/") = [[],lit "a",lit "b",[]] := rfl

end Irods.GenQuery1Setup
