import Irods.GenQuery2Ast

/-! The column mappings of genquery2_table_column_mappings.hpp and the join graph of
genquery2_sql.cpp, as data. An edge and its join condition stand at one position. -/
namespace Irods.GenQuery2Columns
open CText

structure ColumnInfo where
  table : Text
  name : Text
  deriving DecidableEq, Repr

def mapping (column table name : String) : Text × ColumnInfo := (text column,⟨text table,text name⟩)

def columnNameMappings : List (Text × ColumnInfo) := [
  mapping "ZONE_ID" "R_ZONE_MAIN" "zone_id",
  mapping "ZONE_NAME" "R_ZONE_MAIN" "zone_name",
  mapping "ZONE_TYPE" "R_ZONE_MAIN" "zone_type_name",
  mapping "ZONE_CONNECTION" "R_ZONE_MAIN" "zone_conn_string",
  mapping "ZONE_COMMENT" "R_ZONE_MAIN" "r_comment",
  mapping "ZONE_CREATE_TIME" "R_ZONE_MAIN" "create_ts",
  mapping "ZONE_MODIFY_TIME" "R_ZONE_MAIN" "modify_ts",
  mapping "USER_ID" "R_USER_MAIN" "user_id",
  mapping "USER_NAME" "R_USER_MAIN" "user_name",
  mapping "USER_TYPE" "R_USER_MAIN" "user_type_name",
  mapping "USER_ZONE" "R_USER_MAIN" "zone_name",
  mapping "USER_INFO" "R_USER_MAIN" "user_info",
  mapping "USER_COMMENT" "R_USER_MAIN" "r_comment",
  mapping "USER_CREATE_TIME" "R_USER_MAIN" "create_ts",
  mapping "USER_MODIFY_TIME" "R_USER_MAIN" "modify_ts",
  mapping "USER_AUTH_ID" "R_USER_AUTH" "user_id",
  mapping "USER_DN" "R_USER_AUTH" "user_auth_name",
  mapping "USER_DN_INVALID" "R_USER_MAIN" "r_comment",
  mapping "RESC_ID" "R_RESC_MAIN" "resc_id",
  mapping "RESC_NAME" "R_RESC_MAIN" "resc_name",
  mapping "RESC_ZONE_NAME" "R_RESC_MAIN" "zone_name",
  mapping "RESC_TYPE_NAME" "R_RESC_MAIN" "resc_type_name",
  mapping "RESC_CLASS_NAME" "R_RESC_MAIN" "resc_class_name",
  mapping "RESC_HOSTNAME" "R_RESC_MAIN" "resc_net",
  mapping "RESC_VAULT_PATH" "R_RESC_MAIN" "resc_def_path",
  mapping "RESC_FREE_SPACE" "R_RESC_MAIN" "free_space",
  mapping "RESC_FREE_SPACE_TIME" "R_RESC_MAIN" "free_space_ts",
  mapping "RESC_INFO" "R_RESC_MAIN" "resc_info",
  mapping "RESC_COMMENT" "R_RESC_MAIN" "r_comment",
  mapping "RESC_STATUS" "R_RESC_MAIN" "resc_status",
  mapping "RESC_CREATE_TIME" "R_RESC_MAIN" "create_ts",
  mapping "RESC_MODIFY_TIME" "R_RESC_MAIN" "modify_ts",
  mapping "RESC_MODIFY_TIME_MILLIS" "R_RESC_MAIN" "modify_ts_millis",
  mapping "RESC_CHILDREN" "R_RESC_MAIN" "resc_children",
  mapping "RESC_CONTEXT" "R_RESC_MAIN" "resc_context",
  mapping "RESC_PARENT_ID" "R_RESC_MAIN" "resc_parent",
  mapping "RESC_PARENT_CONTEXT" "R_RESC_MAIN" "resc_parent_context",
  mapping "DATA_ID" "R_DATA_MAIN" "data_id",
  mapping "DATA_COLL_ID" "R_DATA_MAIN" "coll_id",
  mapping "DATA_NAME" "R_DATA_MAIN" "data_name",
  mapping "DATA_REPL_NUM" "R_DATA_MAIN" "data_repl_num",
  mapping "DATA_VERSION" "R_DATA_MAIN" "data_version",
  mapping "DATA_TYPE_NAME" "R_DATA_MAIN" "data_type_name",
  mapping "DATA_SIZE" "R_DATA_MAIN" "data_size",
  mapping "DATA_PATH" "R_DATA_MAIN" "data_path",
  mapping "DATA_REPL_STATUS" "R_DATA_MAIN" "data_is_dirty",
  mapping "DATA_STATUS" "R_DATA_MAIN" "data_status",
  mapping "DATA_CHECKSUM" "R_DATA_MAIN" "data_checksum",
  mapping "DATA_EXPIRY" "R_DATA_MAIN" "data_expiry_ts",
  mapping "DATA_MAP_ID" "R_DATA_MAIN" "data_map_id",
  mapping "DATA_COMMENTS" "R_DATA_MAIN" "r_comment",
  mapping "DATA_ACCESS_TIME" "R_DATA_MAIN" "access_ts",
  mapping "DATA_CREATE_TIME" "R_DATA_MAIN" "create_ts",
  mapping "DATA_MODIFY_TIME" "R_DATA_MAIN" "modify_ts",
  mapping "DATA_MODE" "R_DATA_MAIN" "data_mode",
  mapping "DATA_RESC_ID" "R_DATA_MAIN" "resc_id",
  mapping "DATA_RESC_HIER" "" "hier",
  mapping "COLL_ID" "R_COLL_MAIN" "coll_id",
  mapping "COLL_NAME" "R_COLL_MAIN" "coll_name",
  mapping "COLL_PARENT_NAME" "R_COLL_MAIN" "parent_coll_name",
  mapping "COLL_MAP_ID" "R_COLL_MAIN" "coll_map_id",
  mapping "COLL_INHERITANCE" "R_COLL_MAIN" "coll_inheritance",
  mapping "COLL_COMMENTS" "R_COLL_MAIN" "r_comment",
  mapping "COLL_CREATE_TIME" "R_COLL_MAIN" "create_ts",
  mapping "COLL_MODIFY_TIME" "R_COLL_MAIN" "modify_ts",
  mapping "COLL_TYPE" "R_COLL_MAIN" "coll_type",
  mapping "COLL_INFO1" "R_COLL_MAIN" "coll_info1",
  mapping "COLL_INFO2" "R_COLL_MAIN" "coll_info2",
  mapping "META_DATA_ATTR_NAME" "R_META_MAIN" "meta_attr_name",
  mapping "META_DATA_ATTR_VALUE" "R_META_MAIN" "meta_attr_value",
  mapping "META_DATA_ATTR_UNITS" "R_META_MAIN" "meta_attr_unit",
  mapping "META_DATA_ATTR_ID" "R_META_MAIN" "meta_id",
  mapping "META_DATA_CREATE_TIME" "R_META_MAIN" "create_ts",
  mapping "META_DATA_MODIFY_TIME" "R_META_MAIN" "modify_ts",
  mapping "META_DATA_ATTACHED_CREATE_TIME" "R_OBJT_METAMAP" "create_ts",
  mapping "META_DATA_ATTACHED_MODIFY_TIME" "R_OBJT_METAMAP" "modify_ts",
  mapping "META_COLL_ATTR_NAME" "R_META_MAIN" "meta_attr_name",
  mapping "META_COLL_ATTR_VALUE" "R_META_MAIN" "meta_attr_value",
  mapping "META_COLL_ATTR_UNITS" "R_META_MAIN" "meta_attr_unit",
  mapping "META_COLL_ATTR_ID" "R_META_MAIN" "meta_id",
  mapping "META_COLL_CREATE_TIME" "R_META_MAIN" "create_ts",
  mapping "META_COLL_MODIFY_TIME" "R_META_MAIN" "modify_ts",
  mapping "META_COLL_ATTACHED_CREATE_TIME" "R_OBJT_METAMAP" "create_ts",
  mapping "META_COLL_ATTACHED_MODIFY_TIME" "R_OBJT_METAMAP" "modify_ts",
  mapping "META_RESC_ATTR_NAME" "R_META_MAIN" "meta_attr_name",
  mapping "META_RESC_ATTR_VALUE" "R_META_MAIN" "meta_attr_value",
  mapping "META_RESC_ATTR_UNITS" "R_META_MAIN" "meta_attr_unit",
  mapping "META_RESC_ATTR_ID" "R_META_MAIN" "meta_id",
  mapping "META_RESC_CREATE_TIME" "R_META_MAIN" "create_ts",
  mapping "META_RESC_MODIFY_TIME" "R_META_MAIN" "modify_ts",
  mapping "META_RESC_ATTACHED_CREATE_TIME" "R_OBJT_METAMAP" "create_ts",
  mapping "META_RESC_ATTACHED_MODIFY_TIME" "R_OBJT_METAMAP" "modify_ts",
  mapping "META_USER_ATTR_NAME" "R_META_MAIN" "meta_attr_name",
  mapping "META_USER_ATTR_VALUE" "R_META_MAIN" "meta_attr_value",
  mapping "META_USER_ATTR_UNITS" "R_META_MAIN" "meta_attr_unit",
  mapping "META_USER_ATTR_ID" "R_META_MAIN" "meta_id",
  mapping "META_USER_CREATE_TIME" "R_META_MAIN" "create_ts",
  mapping "META_USER_MODIFY_TIME" "R_META_MAIN" "modify_ts",
  mapping "META_USER_ATTACHED_CREATE_TIME" "R_OBJT_METAMAP" "create_ts",
  mapping "META_USER_ATTACHED_MODIFY_TIME" "R_OBJT_METAMAP" "modify_ts",
  mapping "GROUP_ID" "R_USER_GROUP" "group_user_id",
  mapping "GROUP_MEMBER_ID" "R_USER_GROUP" "user_id",
  mapping "DELAY_RULE_ID" "R_RULE_EXEC" "rule_exec_id",
  mapping "DELAY_RULE_NAME" "R_RULE_EXEC" "rule_name",
  mapping "DELAY_RULE_REI_FILE_PATH" "R_RULE_EXEC" "rei_file_path",
  mapping "DELAY_RULE_USER_NAME" "R_RULE_EXEC" "user_name",
  mapping "DELAY_RULE_EXE_ADDRESS" "R_RULE_EXEC" "exe_address",
  mapping "DELAY_RULE_EXE_TIME" "R_RULE_EXEC" "exe_time",
  mapping "DELAY_RULE_EXE_FREQUENCY" "R_RULE_EXEC" "exe_frequency",
  mapping "DELAY_RULE_PRIORITY" "R_RULE_EXEC" "priority",
  mapping "DELAY_RULE_ESTIMATED_EXE_TIME" "R_RULE_EXEC" "estimated_exe_time",
  mapping "DELAY_RULE_NOTIFICATION_ADDR" "R_RULE_EXEC" "notification_addr",
  mapping "DELAY_RULE_LAST_EXE_TIME" "R_RULE_EXEC" "last_exe_time",
  mapping "DELAY_RULE_STATUS" "R_RULE_EXEC" "exe_status",
  mapping "DELAY_RULE_LOCK_HOST" "R_RULE_EXEC" "lock_host",
  mapping "DELAY_RULE_LOCK_HOST_PID" "R_RULE_EXEC" "lock_host_pid",
  mapping "DELAY_RULE_LOCK_TIME" "R_RULE_EXEC" "lock_ts",
  mapping "DATA_ACCESS_PERM_ID" "R_OBJT_ACCESS" "access_type_id",
  mapping "DATA_ACCESS_PERM_NAME" "R_TOKN_MAIN" "token_name",
  mapping "DATA_ACCESS_USER_ID" "R_OBJT_ACCESS" "user_id",
  mapping "DATA_ACCESS_USER_NAME" "R_USER_MAIN" "user_name",
  mapping "DATA_ACCESS_USER_TYPE" "R_USER_MAIN" "user_type_name",
  mapping "DATA_ACCESS_USER_ZONE" "R_USER_MAIN" "zone_name",
  mapping "COLL_ACCESS_PERM_ID" "R_OBJT_ACCESS" "access_type_id",
  mapping "COLL_ACCESS_PERM_NAME" "R_TOKN_MAIN" "token_name",
  mapping "COLL_ACCESS_USER_ID" "R_OBJT_ACCESS" "user_id",
  mapping "COLL_ACCESS_USER_NAME" "R_USER_MAIN" "user_name",
  mapping "COLL_ACCESS_USER_TYPE" "R_USER_MAIN" "user_type_name",
  mapping "COLL_ACCESS_USER_ZONE" "R_USER_MAIN" "zone_name"]

def tableNames : List Text := [
  text "R_COLL_MAIN",
  text "R_DATA_MAIN",
  text "R_META_MAIN",
  text "R_OBJT_ACCESS",
  text "R_OBJT_METAMAP",
  text "R_RESC_MAIN",
  text "R_RULE_EXEC",
  text "R_SPECIFIC_QUERY",
  text "R_TICKET_ALLOWED_HOSTS",
  text "R_TICKET_ALLOWED_USERS",
  text "R_TICKET_ALLOWED_GROUPS",
  text "R_TICKET_MAIN",
  text "R_TOKN_MAIN",
  text "R_USER_AUTH",
  text "R_USER_GROUP",
  text "R_USER_MAIN",
  text "R_USER_PASSWORD",
  text "R_USER_SESSION_KEY",
  text "R_ZONE_MAIN",
  text "R_QUOTA_MAIN"]

structure Edge where
  first : Text
  second : Text
  firstColumn : Text
  secondColumn : Text
  deriving DecidableEq, Repr

def edge (first second firstColumn secondColumn : String) : Edge :=
  ⟨text first,text second,text firstColumn,text secondColumn⟩

def tableEdges : List Edge := [
  edge "R_COLL_MAIN" "R_DATA_MAIN" "coll_id" "coll_id",
  edge "R_COLL_MAIN" "R_OBJT_ACCESS" "coll_id" "object_id",
  edge "R_COLL_MAIN" "R_OBJT_METAMAP" "coll_id" "object_id",
  edge "R_COLL_MAIN" "R_TICKET_MAIN" "coll_id" "object_id",
  edge "R_DATA_MAIN" "R_OBJT_ACCESS" "data_id" "object_id",
  edge "R_DATA_MAIN" "R_OBJT_METAMAP" "data_id" "object_id",
  edge "R_DATA_MAIN" "R_RESC_MAIN" "resc_id" "resc_id",
  edge "R_DATA_MAIN" "R_TICKET_MAIN" "data_id" "object_id",
  edge "R_META_MAIN" "R_OBJT_METAMAP" "meta_id" "meta_id",
  edge "R_OBJT_ACCESS" "R_TOKN_MAIN" "access_type_id" "token_id",
  edge "R_OBJT_METAMAP" "R_RESC_MAIN" "object_id" "resc_id",
  edge "R_OBJT_METAMAP" "R_USER_MAIN" "object_id" "user_id",
  edge "R_TICKET_MAIN" "R_USER_MAIN" "user_id" "user_id",
  edge "R_TICKET_MAIN" "R_TICKET_ALLOWED_HOSTS" "ticket_id" "ticket_id",
  edge "R_TICKET_MAIN" "R_TICKET_ALLOWED_USERS" "ticket_id" "ticket_id",
  edge "R_TICKET_MAIN" "R_TICKET_ALLOWED_GROUPS" "ticket_id" "ticket_id",
  edge "R_USER_MAIN" "R_USER_AUTH" "user_id" "user_id",
  edge "R_USER_MAIN" "R_USER_GROUP" "user_id" "group_user_id",
  edge "R_USER_MAIN" "R_USER_PASSWORD" "user_id" "user_id",
  edge "R_USER_MAIN" "R_USER_SESSION_KEY" "user_id" "user_id"]

end Irods.GenQuery2Columns
