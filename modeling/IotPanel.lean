import IotPanel.Device.Records
import IotPanel.Responser.Routing
import IotPanel.Responser.Validation
import IotPanel.Session.Refinement
import IotPanel.Session.Revocation
import IotPanel.Users.Credentials
import IotPanel.Users.Authorization
import IotPanel.Users.Email
import IotPanel.Users.RoleLists
import IotPanel.Users.RoleUpdates
import IotPanel.Users.PasswordChanges
import IotPanel.Mqtt.Containment
import IotPanel.Device.Answerable
import IotPanel.Device.Authenticity
import IotPanel.Device.Once
import IotPanel.Device.Assignment
import IotPanel.Device.Subscription
import IotPanel.Device.Respect
import IotPanel.Device.Reconnection
import IotPanel.Device.Rejection
import IotPanel.Device.Provenance
import IotPanel.Device.Echoes
import IotPanel.Device.Isolation
import IotPanel.Device.UseCases
import IotPanel.Broker.Configuration
import IotPanel.Mqtt.Unambiguous
import IotPanel.Broker.Rules
import IotPanel.Broker.Trial
import IotPanel.Broker.Flag
import IotPanel.Broker.Attempts
import IotPanel.Device.Restart
import IotPanel.Device.Discovery
import IotPanel.Device.Reconfigure
import IotPanel.Device.Unnamed
import IotPanel.Device.Statuses
import IotPanel.Users.Atomicity
import IotPanel.Users.Framed
import IotPanel.Users.Logins
import IotPanel.Session.History
import IotPanel.Users.Responses
import IotPanel.Users.Tokens
import IotPanel.Users.Cookies
import IotPanel.Gateway.SensorData
import IotPanel.Gateway.Tracking
import IotPanel.Config.SubnetMask
import IotPanel.Device.SensorSchemas
import IotPanel.Redis.Channels
import IotPanel.Redis.History
import IotPanel.Config.TopicOperators
import IotPanel.Common.ErrorResponses
import IotPanel.Common.Controllers
import IotPanel.Device.Publications
