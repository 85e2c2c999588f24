import CfProxy.Shared.Machine
import CfProxy.Shared.Uri
import CfProxy.Authz.Decisions
import CfProxy.Upstream.Client
import CfProxy.Db.Locks
import CfProxy.Filtering.ListFilter
import CfProxy.Routers.ProxyDns
import CfProxy.Routers.Confinement
import CfProxy.Routers.Audit
import CfProxy.Authz.Visibility
import CfProxy.Upstream.Replies
import CfProxy.Routers.Leakage
import CfProxy.Routers.MutationProtocol
import CfProxy.Services.Deletion
import CfProxy.Upstream.Refresh
import CfProxy.Services.Grants
import CfProxy.Upstream.Fencing
import CfProxy.Services.Revocation
import CfProxy.Authz.Additions
import CfProxy.Routers.Listing
import CfProxy.Main.Surfaces
import CfProxy.Main.Bulk
import CfProxy.Services.LoginProtocol
import CfProxy.Services.Tenancy
import CfProxy.Services.Isolation
import CfProxy.Services.Callback
import CfProxy.Services.Delegation
import CfProxy.Core.TokenFormat
import CfProxy.Authz.Patterns
import CfProxy.Authz.Exemption
import CfProxy.Authz.Bodies
import CfProxy.Services.Expiry
import CfProxy.Services.AuditPages
import CfProxy.Routers.Pagination
import CfProxy.Routers.Truncation
import CfProxy.Routers.ConnectionPool
import CfProxy.Authz.Canonical
import CfProxy.Db.Initialization
import CfProxy.Auth.Sessions
import CfProxy.Auth.SigningKeys
import CfProxy.Auth.ProxyAuth
import CfProxy.Main.Mediation
import CfProxy.Main.Blindness
import CfProxy.Routers.Management
import CfProxy.Main.Custody
import CfProxy.Main.Origin
import CfProxy.Services.Redirects
import CfProxy.Services.RuleHistory
import CfProxy.Routers.Concealment
